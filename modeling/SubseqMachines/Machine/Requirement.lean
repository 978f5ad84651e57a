import SubseqMachines.Tape.Basic

/-!
# Requirements on tapes

Before a machine is made, its tapes are checked against a list of requirements. The first one that
is not met gives the reason of the refusal. The checks only look at the tapes.

* `firstUnmet` finds the refusal, `firstUnmet_eq_none_iff` says when there is none;
* `sentinel` and `blankTape` are requirements that several machines share;
* `scanWord` finds the end of a word among cells, `Tape.wordEnd` that of the word behind the head;
* `Tape.drop_wordEnd`, `Tape.getD_wordEnd` and `Tape.wordEnd_ne_iff` say what is found there.
-/

namespace SubseqMachines

/-- Something asked of a tape, and the refusal when it is not met. -/
structure Requirement where
  met : Bool
  otherwise : Refusal
  deriving DecidableEq, Repr

/-- The refusal of the first requirement that is not met. -/
def firstUnmet : List Requirement → Option Refusal
  | [] => none
  | r :: rs => if r.met then firstUnmet rs else some r.otherwise

theorem firstUnmet_eq_none_iff {rs : List Requirement} :
    firstUnmet rs = none ↔ ∀ r ∈ rs, r.met = true := by
  induction rs with
  | nil => simp [firstUnmet]
  | cons r rs ih => by_cases h : r.met <;> simp [firstUnmet, h, ih]

/-- The head is on a blank with nothing but blanks on its left. -/
def sentinel (kind : MachineKind) (side : Side) (t : Tape) : List Requirement :=
  [⟨t.focus = .blank, .headNotBlank kind side⟩,
    ⟨t.left.all (· = .blank), .leftNotBlank kind side⟩]

/-- All cells are blank. -/
def blankTape (kind : MachineKind) (side : Side) (t : Tape) : List Requirement :=
  [⟨t.cells.all (· = .blank), .notBlank kind side⟩]

/-! ## Words among the cells -/

/-- The index of the first cell, from a start on, that is not among the given letters. Beyond the
last cell there is none of them. -/
def scanWord (cells : List Cell) (start : Nat) (letters : List Cell) : Nat :=
  start + ((cells.drop start).takeWhile letters.contains).length

/-- The index of the cell behind the word on the right of the head. -/
def Tape.wordEnd (t : Tape) (letters : List Cell) : Nat :=
  scanWord t.cells (t.head + 1) letters

section Scan

variable {letters : List Cell} {p : Cell → Bool} (hp : letters.contains = p)

include hp

/-- What is left from the end of a word on is what is left when its letters are dropped. -/
theorem drop_scanWord (cells : List Cell) (start : Nat) :
    cells.drop (scanWord cells start letters) = (cells.drop start).dropWhile p := by
  rw [scanWord, ← List.drop_drop, hp]
  induction cells.drop start with
  | nil => rfl
  | cons c cells ih =>
    by_cases hc : p c
    · rw [List.takeWhile_cons_of_pos hc, List.dropWhile_cons_of_pos hc]
      exact ih
    · rw [List.takeWhile_cons_of_neg hc, List.dropWhile_cons_of_neg hc]
      rfl

/-- The cell that ends a word. -/
theorem getD_scanWord (cells : List Cell) (start : Nat) :
    cells.getD (scanWord cells start letters) .blank =
      ((cells.drop start).dropWhile p).headD .blank := by
  rw [← drop_scanWord hp, List.headD_eq_head?_getD, List.head?_drop, List.getD_eq_getElem?_getD]

/-- A word is empty unless it starts with a letter. -/
theorem scanWord_eq_start_iff {cells : List Cell} {start : Nat} (hblank : p .blank = false) :
    scanWord cells start letters = start ↔ p ((cells.drop start).headD .blank) = false := by
  rw [scanWord, hp]
  cases cells.drop start with
  | nil => simpa using hblank
  | cons c cells =>
    by_cases hc : p c
    · simpa [List.takeWhile_cons_of_pos hc] using hc
    · simpa [List.takeWhile_cons_of_neg hc] using hc

end Scan

namespace Tape

theorem drop_cells_head (t : Tape) : t.cells.drop (t.head + 1) = t.right := by
  rw [cells, head, ← List.length_reverse, List.drop_append]
  simp

variable (t : Tape) {letters : List Cell} {p : Cell → Bool} (hp : letters.contains = p)

include hp

theorem drop_wordEnd : t.cells.drop (t.wordEnd letters) = t.right.dropWhile p := by
  rw [wordEnd, drop_scanWord hp, drop_cells_head]

theorem getD_wordEnd :
    t.cells.getD (t.wordEnd letters) .blank = (t.right.dropWhile p).headD .blank := by
  rw [wordEnd, getD_scanWord hp, drop_cells_head]

/-- There is a word behind the head if there is a letter. -/
theorem wordEnd_ne_iff (hblank : p .blank = false) :
    t.wordEnd letters ≠ t.head + 1 ↔ p (t.right.headD .blank) = true := by
  rw [Ne, wordEnd, scanWord_eq_start_iff hp hblank, drop_cells_head, Bool.not_eq_false]

end Tape

end SubseqMachines
