import SubseqMachines.Proofs.Matcher.Layout
import SubseqMachines.Proofs.Sampler.Layout
import SubseqMachines.Trial

/-!
# The tapes that a trial takes

A trial takes a main tape with its head on a blank and only blanks behind it. Ahead of it are
blocks with a `#` between them, none of which is empty, and then only blanks. The aux tape is
blank, with its head anywhere.

* `Trial.Laid`: tapes of this form, with the first block and the later ones named.
* `Trial.afterBlocks?_drop`: its check goes over the cells with one scan for each block.
* `Trial.refusal?_eq_none_iff`: a trial takes exactly these tapes.
* `Trial.Laid.sampler`: they are laid out for the sampler of the trial as well.
-/

namespace SubseqMachines.Trial

/-- The cells of blocks that follow another one, each with the `#` in front of it. -/
def laterCells (later : List (List Letter)) : List Cell :=
  later.flatMap fun block => .hash :: block.map .main

theorem laterCells_cons (block : List Letter) (later : List (List Letter)) :
    laterCells (block :: later) = .hash :: (block.map .main ++ laterCells later) := rfl

/-- Tapes with the main head on the blank before `first`, which `later` and then only blanks follow,
and with a blank aux tape. -/
structure Laid (t : Tapes) (first : List Letter) (later : List (List Letter)) : Prop where
  main_left : ∃ n, t.main.left = List.replicate n .blank
  main_focus : t.main.focus = .blank
  main_right : ∃ n, t.main.right =
    first.map .main ++ (laterCells later ++ List.replicate n .blank)
  first_ne_nil : first ≠ []
  later_ne_nil : ∀ block ∈ later, block ≠ []
  aux_blank : ∃ m n, t.aux = ⟨List.replicate m .blank, .blank, List.replicate n .blank⟩

/-- Blocks are closed by `#`, by a blank or by the end of the tape. -/
theorem isBlockEnd_headD_laterCells (later : List (List Letter)) (n : Nat) :
    ((laterCells later ++ List.replicate n Cell.blank).headD .blank).isBlockEnd = true := by
  cases later with
  | nil =>
    show ((List.replicate n Cell.blank).headD .blank).isBlockEnd = true
    rw [headD_replicate_blank]
    rfl
  | cons block later => rfl

/-! ## Reading blocks off -/

/-- What stands in front of the cells that are left is blocks. -/
theorem exists_blocks_of_afterBlocks? {begun : Bool} {cells rest : List Cell}
    (h : afterBlocks? begun cells = some rest) :
    ∃ first later, cells = first.map .main ++ (laterCells later ++ rest) ∧
      (begun = false → first ≠ []) ∧ ∀ block ∈ later, block ≠ [] := by
  induction cells generalizing begun with
  | nil =>
    cases begun with
    | true =>
      obtain rfl : [] = rest := by simpa [afterBlocks?] using h
      exact ⟨[], [], rfl, by simp, by simp⟩
    | false => simp [afterBlocks?] at h
  | cons c cells ih =>
    cases c with
    | main l =>
      -- a letter more for the block that has begun
      have hcells : afterBlocks? true cells = some rest := h
      obtain ⟨first, later, rfl, -, hlater⟩ := ih hcells
      exact ⟨l :: first, later, rfl, by simp, hlater⟩
    | hash =>
      cases begun with
      | true =>
        -- the block that has begun ends here, and the next one must not be empty
        have hcells : afterBlocks? false cells = some rest := h
        obtain ⟨block, later, rfl, hblock, hlater⟩ := ih hcells
        refine ⟨[], block :: later, ?_, by simp, ?_⟩
        · rw [laterCells_cons]
          simp
        · exact List.forall_mem_cons.mpr ⟨hblock rfl, hlater⟩
      | false => simp [afterBlocks?] at h
    | blank | aux =>
      cases begun with
      | true =>
        obtain rfl : _ = rest := by simpa [afterBlocks?] using h
        exact ⟨[], [], rfl, by simp, by simp⟩
      | false => simp [afterBlocks?] at h

theorem afterBlocks?_letters {block : List Letter} (hblock : block ≠ []) (begun : Bool)
    (cells : List Cell) :
    afterBlocks? begun (block.map .main ++ cells) = afterBlocks? true cells := by
  induction block generalizing begun with
  | nil => exact absurd rfl hblock
  | cons l block ih =>
    show afterBlocks? true (block.map .main ++ cells) = _
    -- after a letter the block has begun, so the rest of it may be empty
    cases block with
    | nil => rfl
    | cons k block => exact ih (by simp) true

theorem afterBlocks?_laterCells {later : List (List Letter)}
    (hlater : ∀ block ∈ later, block ≠ []) (n : Nat) :
    afterBlocks? true (laterCells later ++ List.replicate n .blank) =
      some (List.replicate n .blank) := by
  induction later with
  | nil => cases n <;> rfl
  | cons block later ih =>
    obtain ⟨hblock, hlater⟩ := List.forall_mem_cons.mp hlater
    rw [laterCells_cons, List.cons_append, List.append_assoc]
    show afterBlocks? false _ = _
    rw [afterBlocks?_letters hblock, ih hlater]

/-! ## Reading off by scanning -/

/-- A block begins with a letter. -/
theorem afterBlocks?_false (cells : List Cell) :
    afterBlocks? false cells =
      if (cells.headD .blank).isMainLetter = false then none else afterBlocks? true cells := by
  cases cells with
  | nil => rfl
  | cons c cells => cases c <;> rfl

/-- Behind the letters of a block is a `#` and then another block, or what follows the last one. -/
theorem afterBlocks?_true (cells : List Cell) :
    let rest := cells.dropWhile Cell.isMainLetter
    afterBlocks? true cells =
      if rest.headD .blank = .hash then afterBlocks? false rest.tail else some rest := by
  induction cells with
  | nil => rfl
  | cons c cells ih =>
    cases c with
    | main l => exact ih
    | hash | blank | aux => rfl

/-- **The blocks are read off by one scan for each.** A block that is empty is refused, and a `#`
at the end of one leads on to the next. -/
theorem afterBlocks?_drop (cells : List Cell) (start : Nat) :
    let last := scanWord cells start Cell.mainLetters
    afterBlocks? false (cells.drop start) =
      if last = start then none
      else if cells.getD last .blank = .hash then afterBlocks? false (cells.drop (last + 1))
      else some (cells.drop last) := by
  intro last
  have hempty : (last = start) = (((cells.drop start).headD .blank).isMainLetter = false) :=
    propext (scanWord_eq_start_iff Cell.contains_mainLetters rfl)
  have hends : cells.drop last = (cells.drop start).dropWhile Cell.isMainLetter :=
    drop_scanWord Cell.contains_mainLetters cells start
  rw [afterBlocks?_false, afterBlocks?_true, getD_scanWord Cell.contains_mainLetters,
    ← List.tail_drop, hends]
  simp only [hempty]

/-! ## The check -/

/-- **A trial takes exactly the tapes that are laid out for it.** -/
theorem refusal?_eq_none_iff {t : Tapes} :
    refusal? t = none ↔ ∃ first later, Laid t first later := by
  rw [refusal?_eq_none_iff_met, Tape.cells_all_blank_iff]
  constructor
  · rintro ⟨hfocus, hleft, hsome, hrest, haux⟩
    obtain ⟨rest, hafter⟩ := Option.isSome_iff_exists.mp hsome
    rw [hafter, Option.getD_some, all_blank_iff] at hrest
    obtain ⟨n, rfl⟩ := hrest
    obtain ⟨first, later, hmain, hfirst, hlater⟩ := exists_blocks_of_afterBlocks? hafter
    exact ⟨first, later,
      { main_left := all_blank_iff.mp hleft, main_focus := hfocus, main_right := ⟨n, hmain⟩
        first_ne_nil := hfirst rfl, later_ne_nil := hlater, aux_blank := haux }⟩
  · rintro ⟨first, later, h⟩
    obtain ⟨n, hmain⟩ := h.main_right
    have hafter : afterBlocks? false t.main.right = some (List.replicate n .blank) := by
      rw [hmain, afterBlocks?_letters h.first_ne_nil, afterBlocks?_laterCells h.later_ne_nil]
    rw [hafter]
    exact ⟨h.main_focus, all_blank_iff.mpr h.main_left, rfl, all_blank_iff.mpr ⟨n, rfl⟩,
      h.aux_blank⟩

/-! ## What the sampler finds -/

theorem Laid.sampler {t : Tapes} {first : List Letter} {later : List (List Letter)}
    (h : Laid t first later) :
    ∃ n, Sampler.Laid t first (laterCells later ++ List.replicate n .blank) := by
  obtain ⟨n, hmain⟩ := h.main_right
  exact ⟨n,
    { main_left := h.main_left, main_focus := h.main_focus, main_right := hmain
      word_ne_nil := h.first_ne_nil, rest_head := isBlockEnd_headD_laterCells later n
      aux_blank := h.aux_blank }⟩

end SubseqMachines.Trial
