import SubseqMachines.Tape.Basic

/-!
# Text notation for tapes

The characters `a`, `b` and `#` spell symbols and `_` spells a blank. A printed tape has its head in
brackets, such as `_[#]ab#_`.

* `parseMain` and `parseAux` read the symbols of a main tape and of an aux word;
* `trialTapes`, `samplerTapes` and `matcherTapes` lay out the tapes that each machine starts from;
* `Tape.render` prints a tape, `Tape.decodeWord` reads a word off it, `Tape.listing` lists its cells
  by name;
* `parseMain_eq_ok_iff` and `parseAux_eq_ok_iff`: a text is read exactly when it spells the symbols.
-/

namespace SubseqMachines

/-! ## Reading symbols -/

/-- The main-tape symbols that a text spells. The first character that spells none is named. -/
def parseMain (text : String) : Except Fault (List Cell) :=
  text.toList.mapM fun c =>
    (Cell.mainOfChar? c).elim (.error (.refusal (.mainCharacter c))) .ok

/-- The aux-tape symbols that a word spells. The first character that spells none is named. -/
def parseAux (word : String) : Except Fault (List Cell) :=
  word.toList.mapM fun c =>
    (Cell.auxOfChar? c).elim (.error (.refusal (.auxCharacter c))) .ok

private theorem mapM_eq_ok_iff {α β ε : Type} {f : α → Option β} {e : α → ε} {xs : List α}
    {ys : List β} :
    (xs.mapM fun x => (f x).elim (Except.error (e x)) Except.ok) = .ok ys ↔
      xs.map f = ys.map some := by
  induction xs generalizing ys with
  | nil => cases ys <;> simp [pure, Except.pure]
  | cons x xs ih =>
    rw [List.mapM_cons]
    cases hx : f x with
    -- the first element that stands for nothing stops the reading
    | none => cases ys <;> simp [hx, bind, Except.bind]
    | some y =>
      cases hxs : xs.mapM fun x => (f x).elim (Except.error (e x)) Except.ok with
      | error d =>
        have : ∀ ys, xs.map f ≠ List.map some ys := fun ys h => by simp [ih.mpr h] at hxs
        cases ys <;> simp [hx, bind, Except.bind, this]
      | ok zs =>
        have := ih.mp hxs
        cases ys <;>
          simp [hx, bind, Except.bind, pure, Except.pure, this, List.map_inj_right]

theorem parseMain_eq_ok_iff {text : String} {cells : List Cell} :
    parseMain text = .ok cells ↔ text.toList.map Cell.mainOfChar? = cells.map some :=
  mapM_eq_ok_iff

theorem parseAux_eq_ok_iff {word : String} {cells : List Cell} :
    parseAux word = .ok cells ↔ word.toList.map Cell.auxOfChar? = cells.map some :=
  mapM_eq_ok_iff

/-! ## Layouts -/

/-- A tape with its head on the first cell. -/
def Tape.startingAt (first : Cell) (rest : List Cell) : Tape :=
  ⟨[], first, rest⟩

/-- The tapes `[_]text` and `[_]`, from which a trial starts. -/
def trialTapes (text : String) : Except Fault Tapes := do
  let cells ← parseMain text
  return ⟨.startingAt .blank cells, .blank⟩

/-- The tapes `[_]block#` and `[_]`, from which a sampler starts. -/
def samplerTapes (block : String) : Except Fault Tapes := do
  let cells ← parseMain block
  return ⟨.startingAt .blank (cells ++ [.hash]), .blank⟩

/-- The tapes `[#]block#` and `[_]word_`, from which a matcher starts. -/
def matcherTapes (block word : String) : Except Fault Tapes := do
  let cells ← parseMain block
  let letters ← parseAux word
  return ⟨.startingAt .hash (cells ++ [.hash]), .startingAt .blank (letters ++ [.blank])⟩

/-! ## Printing -/

namespace Tape

/-- The printed form of a tape, with the head in brackets. -/
def render (t : Tape) : String :=
  String.ofList <|
    t.left.reverse.map Cell.char ++ '[' :: t.focus.char :: ']' :: t.right.map Cell.char

/-- The word on the right of the head, up to the first blank. -/
def decodeWord (t : Tape) : String :=
  String.ofList ((t.right.takeWhile (· ≠ .blank)).map Cell.char)

/-- The head index and the cells of a tape by name. -/
def listing (t : Tape) : String :=
  "Tape(head=" ++ toString t.head ++ ", cells=["
    ++ String.intercalate ", " (t.cells.map Cell.name) ++ "])"

end Tape

end SubseqMachines
