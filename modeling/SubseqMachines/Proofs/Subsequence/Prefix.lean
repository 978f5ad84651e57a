import Mathlib.Data.List.Basic
import Mathlib.Order.Bounds.Basic
import SubseqMachines.Subsequence

/-!
# Subsequences of prefixes

A matcher sees a block cell by cell and looks for one letter of the word at a time, so what it knows
on its way speaks of a prefix of the word and a prefix of the block. This module says how such a
relation changes when either prefix grows by one symbol.

* `isLeast_take_succ`, `not_sublist_take_succ`: the next symbol of the block is the one that is
  looked for, or it is not.
* `not_sublist_of_isLeast`: the shortest prefix that has a word has no longer one.
* `isGreatest_matched`: how much of a word the greedy reading finds is the most that can be found.
* `matched_eq_of_take`, `matched_eq_length_iff`, `matched_lt_length_iff`: that number from two
  neighbouring prefixes of the word, and when it is all of the word.
-/

namespace SubseqMachines

variable {α : Type}

/-! ## One symbol more -/

theorem sublist_of_concat_sublist_concat {word block : List α} {x y : α}
    (h : (word ++ [x]).Sublist (block ++ [y])) : word.Sublist block := by
  rw [← List.reverse_sublist, List.reverse_append, List.reverse_append] at h
  exact List.reverse_sublist.mp h.of_cons_cons

theorem concat_sublist_of_ne {word block : List α} {x y : α} (hne : x ≠ y)
    (h : (word ++ [x]).Sublist (block ++ [y])) : (word ++ [x]).Sublist block := by
  rw [← List.reverse_sublist, List.reverse_append, List.reverse_append] at h
  have h' := List.Sublist.of_cons_of_ne hne h
  rw [← List.reverse_sublist, List.reverse_append]
  exact h'

/-- The shortest prefix of a block that has a word has no word that is one symbol longer. -/
theorem not_sublist_of_isLeast {word block : List α} {x : α} {j : Nat} (hj : j ≤ block.length)
    (h : IsLeast {p | word.Sublist (block.take p)} j) :
    ¬ (word ++ [x]).Sublist (block.take j) := by
  intro hsub
  cases j with
  | zero => simp at hsub
  | succ j =>
    -- without its last symbol the prefix would still have the word
    rw [List.take_succ_eq_append_getElem (show j < block.length from hj)] at hsub
    have hshort : j ∈ {p | word.Sublist (block.take p)} := sublist_of_concat_sublist_concat hsub
    have := h.2 hshort
    omega

/-- The symbol that is looked for has been found. -/
theorem isLeast_take_succ {word block : List α} {x : α} {j : Nat} (hx : block[j]? = some x)
    (hword : word.Sublist (block.take j)) (hnot : ¬ (word ++ [x]).Sublist (block.take j)) :
    IsLeast {p | (word ++ [x]).Sublist (block.take p)} (j + 1) := by
  constructor
  · show (word ++ [x]).Sublist (block.take (j + 1))
    rw [List.take_add_one, hx]
    exact hword.append (List.Sublist.refl [x])
  · intro p hp
    by_contra hlt
    -- a prefix that is not longer than `j` is part of the one that has been passed
    have hpj : (block.take p).Sublist (block.take j) :=
      (List.take_sublist_take_left (show p ≤ j by omega))
    exact hnot (List.Sublist.trans hp hpj)

/-- The symbol that is looked for is still to be found. -/
theorem not_sublist_take_succ {word block : List α} {x y : α} {j : Nat} (hy : block[j]? = some y)
    (hne : y ≠ x) (hnot : ¬ (word ++ [x]).Sublist (block.take j)) :
    ¬ (word ++ [x]).Sublist (block.take (j + 1)) := by
  intro hsub
  rw [List.take_add_one, hy] at hsub
  exact hnot (concat_sublist_of_ne (Ne.symm hne) hsub)

/-! ## How much of a word is found -/

variable [DecidableEq α]

/-- **The greedy reading finds as much of a word as can be found.** -/
theorem isGreatest_matched (word block : List α) :
    IsGreatest {k | k ≤ word.length ∧ (word.take k).Sublist block} (matched word block) := by
  induction word generalizing block with
  | nil =>
    constructor
    · exact ⟨Nat.le_refl 0, List.nil_sublist block⟩
    · exact fun k hk => hk.1
  | cons x word ih =>
    rw [matched]
    cases hafter : after? x block with
    | none =>
      -- no place for the first symbol, so nothing longer than the empty word is found
      refine ⟨⟨Nat.zero_le _, List.nil_sublist block⟩, ?_⟩
      rintro (_ | k) ⟨-, hk⟩
      · exact Nat.le_refl 0
      · rw [List.take_succ_cons] at hk
        obtain ⟨rest, hrest, -⟩ := sublist_cons_iff_after?.mp hk
        simp [hafter] at hrest
    | some rest =>
      obtain ⟨⟨hle, hsub⟩, hmax⟩ := ih rest
      constructor
      · refine ⟨Nat.succ_le_succ hle, ?_⟩
        show ((x :: word).take (matched word rest + 1)).Sublist block
        rw [List.take_succ_cons]
        exact sublist_cons_iff_after?.mpr ⟨rest, hafter, hsub⟩
      · -- the first symbol may as well be found at its first place
        rintro (_ | k) ⟨hk, hsub⟩
        · exact Nat.zero_le _
        · rw [List.take_succ_cons] at hsub
          obtain ⟨rest', hrest, hsub⟩ := sublist_cons_iff_after?.mp hsub
          obtain rfl : rest = rest' := by simpa [hafter] using hrest
          exact Nat.succ_le_succ (hmax ⟨Nat.le_of_succ_le_succ hk, hsub⟩)

/-- If a prefix of a word is found and the next longer one is not, the greedy reading finds that
prefix. -/
theorem matched_eq_of_take {word block : List α} {k : Nat} (hk : k < word.length)
    (hsub : (word.take k).Sublist block) (hnot : ¬ (word.take (k + 1)).Sublist block) :
    matched word block = k := by
  refine (isGreatest_matched word block).unique ⟨⟨Nat.le_of_lt hk, hsub⟩, ?_⟩
  rintro l ⟨-, hl⟩
  by_contra hlt
  exact hnot ((List.take_sublist_take_left (by omega)).trans hl)

theorem matched_eq_length_iff {word block : List α} :
    matched word block = word.length ↔ word.Sublist block := by
  obtain ⟨⟨hle, hsub⟩, hmax⟩ := isGreatest_matched word block
  constructor
  · intro h
    rwa [h, List.take_length] at hsub
  · intro h
    have := hmax ⟨Nat.le_refl _, by rwa [List.take_length]⟩
    omega

theorem matched_lt_length_iff {word block : List α} :
    matched word block < word.length ↔ ¬ word.Sublist block := by
  have hle := (isGreatest_matched word block).1.1
  rw [← matched_eq_length_iff]
  omega

end SubseqMachines
