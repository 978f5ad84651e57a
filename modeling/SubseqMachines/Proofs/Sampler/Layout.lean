import SubseqMachines.Proofs.Tape.Stretch
import SubseqMachines.Sampler

/-!
# The tapes that a sampler takes

A sampler takes a main tape with its head on a blank, only blanks behind it, and a closed word ahead
of it, and an aux tape of blanks with its head anywhere.

* `Sampler.Laid`: tapes of this form, with the word and what follows it named.
* `Sampler.refusal?_eq_none_iff`: a sampler takes exactly these tapes.
-/

namespace SubseqMachines.Sampler

/-- Tapes with the main head on the blank before `word`, which `rest` follows and closes, and with a
blank aux tape. -/
structure Laid (t : Tapes) (word : List Letter) (rest : List Cell) : Prop where
  main_left : ∃ n, t.main.left = List.replicate n .blank
  main_focus : t.main.focus = .blank
  main_right : t.main.right = word.map .main ++ rest
  word_ne_nil : word ≠ []
  rest_head : (rest.headD .blank).isBlockEnd = true
  aux_blank : ∃ m n, t.aux = ⟨List.replicate m .blank, .blank, List.replicate n .blank⟩

/-- **A sampler takes exactly the tapes that are laid out for it.** -/
theorem refusal?_eq_none_iff {t : Tapes} :
    refusal? t = none ↔ ∃ word rest, Laid t word rest := by
  rw [refusal?_eq_none_iff_met, Tape.cells_all_blank_iff]
  constructor
  · rintro ⟨hfocus, hleft, hword, hclosed, haux⟩
    obtain ⟨word, rest, hmain, hrest⟩ := tells_main.exists_stretch rfl t.main.right
    rw [hmain, tells_main.headD_stretch hrest] at hword
    rw [hmain, tells_main.dropWhile_stretch hrest] at hclosed
    exact ⟨word, rest,
      { main_left := all_blank_iff.mp hleft, main_focus := hfocus, main_right := hmain
        word_ne_nil := hword, rest_head := hclosed, aux_blank := haux }⟩
  · rintro ⟨word, rest, h⟩
    have hrest := isMainLetter_eq_false_of_isBlockEnd h.rest_head
    refine ⟨h.main_focus, all_blank_iff.mpr h.main_left, ?_, ?_, h.aux_blank⟩
    · rw [h.main_right, tells_main.headD_stretch hrest]
      exact h.word_ne_nil
    · rw [h.main_right, tells_main.dropWhile_stretch hrest]
      exact h.rest_head

end SubseqMachines.Sampler
