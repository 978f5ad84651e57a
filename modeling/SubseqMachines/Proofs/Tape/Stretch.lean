import SubseqMachines.Tape.Notation

/-!
# Stretches of letters

The machines look at a tape as stretches of letters of one kind with something else between them.
A kind of letter is given by the cells that hold it and the test that tells them from other cells.

* `Tells p f`: the test `p` holds of the cells `f l` and of no others.
* `Tells.exists_stretch`: any cells start with a stretch of letters, which may be empty, and what
  follows it does not start with a letter.
* `Tells.dropWhile_stretch`: what follows a stretch is what is left when its letters are dropped.
* `Tape.decodeWord_of_right`: the word that is read off a tape.
* `all_blank_iff`, `Tape.cells_all_blank_iff`: a stretch of blanks, and a tape of blanks.
-/

namespace SubseqMachines

/-- A test that tells the cells of one kind of letter from all other cells. -/
def Tells (p : Cell → Bool) (f : Letter → Cell) : Prop :=
  ∀ c, p c = true ↔ ∃ l, c = f l

theorem tells_main : Tells Cell.isMainLetter Cell.main := fun _ => Cell.isMainLetter_iff

theorem isMainLetter_eq_false_of_isBlockEnd {c : Cell} (h : c.isBlockEnd = true) :
    c.isMainLetter = false := by
  cases c <;> first | rfl | simp [Cell.isBlockEnd] at h

theorem tells_aux : Tells Cell.isAuxLetter Cell.aux := fun _ => Cell.isAuxLetter_iff

namespace Tells

variable {p : Cell → Bool} {f : Letter → Cell}

theorem exists_stretch (h : Tells p f) (hblank : p .blank = false) (cells : List Cell) :
    ∃ (word : List Letter) (rest : List Cell),
      cells = word.map f ++ rest ∧ p (rest.headD .blank) = false := by
  induction cells with
  | nil => exact ⟨[], [], rfl, hblank⟩
  | cons c cells ih =>
    -- the stretch goes on as long as the test holds
    cases hc : p c with
    | false => exact ⟨[], c :: cells, rfl, hc⟩
    | true =>
      obtain ⟨l, rfl⟩ := (h c).mp hc
      obtain ⟨word, rest, rfl, hrest⟩ := ih
      exact ⟨l :: word, rest, rfl, hrest⟩

theorem dropWhile_stretch (h : Tells p f) {word : List Letter} {rest : List Cell}
    (hrest : p (rest.headD .blank) = false) : (word.map f ++ rest).dropWhile p = rest := by
  rw [List.dropWhile_append_of_pos]
  · cases rest with
    | nil => rfl
    | cons c rest => exact List.dropWhile_cons_of_neg (by simpa using hrest)
  · intro c hc
    obtain ⟨l, -, rfl⟩ := List.mem_map.mp hc
    exact (h _).mpr ⟨l, rfl⟩

/-- A stretch is empty exactly when it does not start with a letter. -/
theorem headD_stretch (h : Tells p f) {word : List Letter} {rest : List Cell}
    (hrest : p (rest.headD .blank) = false) :
    p ((word.map f ++ rest).headD .blank) = true ↔ word ≠ [] := by
  cases word with
  | nil =>
    rw [List.map_nil, List.nil_append, hrest]
    simp
  | cons l word =>
    have hl : p (f l) = true := (h (f l)).mpr ⟨l, rfl⟩
    simpa using hl

end Tells

/-! ## Blanks -/

theorem all_blank_iff {cells : List Cell} :
    cells.all (· = .blank) = true ↔ ∃ n, cells = List.replicate n .blank := by
  rw [List.all_eq_true]
  constructor
  · intro h
    exact ⟨cells.length, List.eq_replicate_iff.mpr ⟨rfl, fun c hc => by simpa using h c hc⟩⟩
  · rintro ⟨n, rfl⟩ c hc
    simpa using List.eq_of_mem_replicate hc

theorem Tape.cells_all_blank_iff {t : Tape} :
    t.cells.all (· = .blank) = true ↔
      ∃ m n, t = ⟨List.replicate m .blank, .blank, List.replicate n .blank⟩ := by
  obtain ⟨l, f, r⟩ := t
  rw [cells, List.all_append, List.all_cons, List.all_reverse, Bool.and_eq_true, Bool.and_eq_true,
    all_blank_iff, all_blank_iff, decide_eq_true_eq]
  constructor
  · rintro ⟨⟨m, rfl⟩, rfl, n, rfl⟩
    exact ⟨m, n, rfl⟩
  · rintro ⟨m, n, h⟩
    cases h
    exact ⟨⟨m, rfl⟩, rfl, n, rfl⟩

theorem headD_replicate_blank (n : Nat) : (List.replicate n Cell.blank).headD .blank = .blank := by
  cases n <;> rfl

/-- The word that stands between the head and the first blank. -/
theorem Tape.decodeWord_of_right {t : Tape} {word : List Letter} {n : Nat}
    (h : t.right = word.map .aux ++ List.replicate n .blank) :
    t.decodeWord = Letter.spell word := by
  -- the reading goes over all letters and stops at the first blank
  have hword : ∀ c ∈ word.map Cell.aux, decide (c ≠ .blank) = true := by
    intro c hc
    obtain ⟨l, -, rfl⟩ := List.mem_map.mp hc
    rfl
  have hblanks : (List.replicate n Cell.blank).takeWhile (· ≠ .blank) = [] := by
    cases n <;> rfl
  rw [decodeWord, h, List.takeWhile_append_of_pos hword, hblanks, List.append_nil,
    List.map_map]
  rfl

end SubseqMachines
