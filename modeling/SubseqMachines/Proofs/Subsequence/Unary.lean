import SubseqMachines.Proofs.Subsequence.Prefix

/-!
# The most that a matcher can need

A matcher on a block of `n` letters and a word of `m` letters makes `2n + 4k + 6` head operations,
where `k` is how much of the word it finds. It finds no more letters than there are in either, and
that many if all letters are the same. So `matcherSteps`, which tells the number for blocks and
words of one letter, is a bound for all of them.

* `matched_replicate`: how much of a word of one letter is found in a block of that letter.
* `le_matcherSteps`, `eq_matcherSteps_of_replicate`: the bound, and where it is reached.
-/

namespace SubseqMachines

variable {α : Type} [DecidableEq α]

/-- A word of one symbol is found up to the length of a block of that symbol. -/
theorem matched_replicate (x : α) (n m : Nat) :
    matched (List.replicate m x) (List.replicate n x) = min n m := by
  refine (isGreatest_matched _ _).unique ⟨⟨?_, ?_⟩, ?_⟩
  · rw [List.length_replicate]
    exact Nat.min_le_right n m
  · rw [List.take_replicate, List.replicate_sublist_replicate]
    omega
  · rintro k ⟨hword, hsub⟩
    rw [List.take_replicate, List.replicate_sublist_replicate] at hsub
    rw [List.length_replicate] at hword
    omega

/-- No word has more of it found than there are symbols in the block. -/
theorem matched_le_length (word block : List α) : matched word block ≤ block.length := by
  obtain ⟨⟨hle, hsub⟩, -⟩ := isGreatest_matched word block
  have hlen := hsub.length_le
  rw [List.length_take] at hlen
  omega

/-- **The number for blocks and words of one letter is a bound for all of the same lengths.** -/
theorem le_matcherSteps (word block : List α) :
    ((2 * block.length + 4 * matched word block + 6 : Nat) : Int) ≤
      matcherSteps block.length word.length := by
  have hword : matched word block ≤ word.length := (isGreatest_matched word block).1.1
  have hblock := matched_le_length word block
  unfold matcherSteps
  split <;> omega

theorem eq_matcherSteps_of_replicate (x : α) (n m : Nat) :
    ((2 * n + 4 * matched (List.replicate m x) (List.replicate n x) + 6 : Nat) : Int) =
      matcherSteps n m := by
  rw [matched_replicate, matcherSteps]
  -- the shorter one of the two decides
  split <;> omega

end SubseqMachines
