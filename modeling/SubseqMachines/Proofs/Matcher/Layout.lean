import SubseqMachines.Matcher
import SubseqMachines.Proofs.Tape.Stretch

/-!
# The tapes that a matcher takes

A matcher takes a main tape with its head on a `#` and a block ahead of it, and an aux tape with its
head on a blank, only blanks behind it, and a word and then only blanks ahead of it. What is behind
the main head, and what follows the block, is not asked for.

* `Matcher.Laid`: tapes of this form, with the block, the word and what follows the block named.
* `Matcher.refusal?_eq_none_iff`: a matcher takes exactly these tapes.
-/

namespace SubseqMachines.Matcher

/-- Tapes with the main head on the `#` before `block`, which `rest` follows, and the aux head on
the blank before `word`. -/
structure Laid (t : Tapes) (block word : List Letter) (rest : List Cell) : Prop where
  main_focus : t.main.focus = .hash
  main_right : t.main.right = block.map .main ++ rest
  block_ne_nil : block ≠ []
  /-- The block is all of the letters there. -/
  rest_head : (rest.headD .blank).isMainLetter = false
  aux_left : ∃ n, t.aux.left = List.replicate n .blank
  aux_focus : t.aux.focus = .blank
  aux_right : ∃ n, t.aux.right = word.map .aux ++ List.replicate n .blank
  word_ne_nil : word ≠ []

theorem Laid.length_word_le {t : Tapes} {block word : List Letter} {rest : List Cell}
    (h : Laid t block word rest) : word.length ≤ t.aux.right.length := by
  obtain ⟨n, haux⟩ := h.aux_right
  simp [haux]

/-- **A matcher takes exactly the tapes that are laid out for it.** -/
theorem refusal?_eq_none_iff {t : Tapes} :
    refusal? t = none ↔ ∃ block word rest, Laid t block word rest := by
  rw [refusal?_eq_none_iff_met]
  constructor
  · rintro ⟨hhash, hblock, hfocus, hleft, hword, hafter⟩
    obtain ⟨block, rest, hmain, hrest⟩ := tells_main.exists_stretch rfl t.main.right
    obtain ⟨word, blanks, haux, hblanks⟩ := tells_aux.exists_stretch rfl t.aux.right
    rw [hmain, tells_main.headD_stretch hrest] at hblock
    rw [haux, tells_aux.headD_stretch hblanks] at hword
    rw [haux, tells_aux.dropWhile_stretch hblanks, all_blank_iff] at hafter
    obtain ⟨n, rfl⟩ := hafter
    exact ⟨block, word, rest,
      { main_focus := hhash, main_right := hmain, block_ne_nil := hblock, rest_head := hrest
        aux_left := all_blank_iff.mp hleft, aux_focus := hfocus, aux_right := ⟨n, haux⟩
        word_ne_nil := hword }⟩
  · rintro ⟨block, word, rest, h⟩
    obtain ⟨n, haux⟩ := h.aux_right
    have hblanks : ((List.replicate n Cell.blank).headD .blank).isAuxLetter = false := by
      rw [headD_replicate_blank]
      rfl
    refine ⟨h.main_focus, ?_, h.aux_focus, all_blank_iff.mpr h.aux_left, ?_, ?_⟩
    · rw [h.main_right, tells_main.headD_stretch h.rest_head]
      exact h.block_ne_nil
    · rw [haux, tells_aux.headD_stretch hblanks]
      exact h.word_ne_nil
    · rw [haux, tells_aux.dropWhile_stretch hblanks]
      exact all_blank_iff.mpr ⟨n, rfl⟩

end SubseqMachines.Matcher
