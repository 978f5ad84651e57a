import SubseqMachines.Proofs.CommandLine.Lengths
import SubseqMachines.Proofs.Matcher.Verdict

/-!
# The cost of a matcher

What a run of a matcher costs depends only on the length of the block and on how much of the word is
found in it, whether it accepts or rejects.

* `Matcher.run_cost_le_matcherSteps`: the number of its steps and what its counter tallies, the
  bound for words and blocks of the same lengths, and what the run command prints of this.
* `Matcher.run_of_tooLong_block`: the run command on a block that no text can be.
-/

namespace SubseqMachines.Matcher

/-- **The cost of a matcher.** Let a matcher be made on a block of `n` letters that is closed by
`#`, a blank or the end of the tape, and a word of which the block contains the first `k` letters
and no more. Its run takes `n + 2k + 3` steps and `2n + 4k + 6` head operations, whatever the
verdict is. This is at most `matcherSteps` for the two lengths, and exactly that if the block and
the word are made of one and the same letter. So the run command prints the number of operations
that it has predicted, and its verdict tells whether the word is no longer than the block. This is
for lengths that a text can have; for others it fails and prints nothing. -/
theorem run_cost_le_matcherSteps (σ : Store) (main aux : Handle Reel)
    (own : Option (Handle Counter)) (coin : Option (Handle Coin)) (ownHandler : Bool)
    (chance : Chance) :
    (∀ {made : Store}, σ.make .matcher main aux own coin = .ok made →
      (∃ block word rest, Laid ⟨σ.tape main, σ.tape aux⟩ block word rest) ∧
      ∀ block word rest, Laid ⟨σ.tape main, σ.tape aux⟩ block word rest →
        (rest.headD .blank).isBlockEnd = true →
        let n := block.length
        let m := word.length
        let k := matched word block
        let r := made.run σ.machines.next
        IsGreatest {k | k ≤ m ∧ (word.take k).Sublist block} k ∧
          r.result = .ok (decide (word.Sublist block)) ∧
          (r.store.machines.get σ.machines.next).ticks = n + 2 * k + 3 ∧
          (∀ counter, own = some counter ∨ own = none ∧
              σ.counterOf main = some counter ∧ σ.counterOf aux = some counter →
            (r.store.counters.get counter).value =
              (σ.counters.get counter).value + (2 * n + 4 * k + 6 : Nat)) ∧
          1 ≤ n ∧ 1 ≤ m ∧ ((2 * n + 4 * k + 6 : Nat) : Int) ≤ matcherSteps n m ∧
          ∀ l, block = List.replicate n l → word = List.replicate m l →
            ((2 * n + 4 * k + 6 : Nat) : Int) = matcherSteps n m) ∧
      ∀ (n m : Nat), 1 ≤ n → 1 ≤ m → ∀ textN textM,
        Text.readInt? textN = some (n : Int) → Text.readInt? textM = some (m : Int) →
        let answer :=
          CommandLine.Exit.ofCommandLine ["run", "-n", textN, "-m", textM] ownHandler chance
        (n < 0x8000000000000000 → m < 0x8000000000000000 → answer =
          .ok { code := 0
                stdout := String.join <|
                  ["Result: " ++ toString (decide (m ≤ n)), "n=" ++ toString n,
                    "m=" ++ toString m, "Steps: " ++ toString (matcherSteps n m),
                    "Predicted steps: " ++ toString (matcherSteps n m)].map (· ++ "\n") }) ∧
        (0x8000000000000000 ≤ n ∨ 0x8000000000000000 ≤ m → answer = .error .tooLong) := by
  refine ⟨?_, fun n m hn hm textN textM hreadN hreadM => ⟨?_, ?_⟩⟩
  rotate_left
  · intro hn' hm'
    have hverdict : decide ((m : Int) ≤ n) = decide (m ≤ n) := decide_eq_decide.mpr Int.ofNat_le
    rw [← hverdict]
    exact CommandLine.Exit.ofCommandLine_run hreadN hreadM hn hm hn' hm' ownHandler chance
  · intro hlong
    exact CommandLine.Exit.ofCommandLine_run_tooLong hreadN hreadM hn hm hlong ownHandler chance
  intro made hmade
  obtain ⟨mount, rfl, rfl, hm⟩ := Store.exists_made hmade
  refine ⟨refusal?_eq_none_iff.mp hm.refusal, ?_⟩
  intro block word rest hlaid hclosed n m k r
  obtain ⟨⟨mount', hworked⟩, hresult⟩ := exists_worked_run hm hlaid hclosed
  obtain ⟨-, -, -, hticks, hcost⟩ :=
    run_of_laid (b := σ.startBench .matcher coin mount) hlaid hclosed
  refine ⟨isGreatest_matched word block, hresult, ?_, ?_,
    List.length_pos_iff.mpr hlaid.block_ne_nil, List.length_pos_iff.mpr hlaid.word_ne_nil,
    le_matcherSteps word block, ?_⟩
  · show (r.store.machines.get σ.machines.next).ticks = _
    rw [hworked.machine]
    simp only [Store.after, hm.machine, Outcome.map, hticks, Nat.zero_add, n, k]
  · intro counter hcounter
    obtain ⟨hmain, haux⟩ := hm.counterOf_both hcounter
    have hvalue := hworked.effect.counters counter
    rw [Store.tally_of_both hmain haux, hm.counters] at hvalue
    -- the operations on the main tape and those on the aux tape
    have htotal : (Device.run State.nextLetter (σ.startBench .matcher coin mount)).cost.total =
        2 * n + 4 * k + 6 := by
      rw [hcost]
      show 2 * (n + 1) + 4 * (k + 1) = _
      omega
    simp only [Outcome.map, htotal] at hvalue
    exact hvalue
  · intro l hblock hword
    have heq := eq_matcherSteps_of_replicate l n m
    rw [← hblock, ← hword] at heq
    exact heq

/-- The word `bb` on the block `ab`, of which one letter is found, and a command line. -/
theorem run_cost_le_matcherSteps_ab_bb :
    let σ := ((({} : Store).addReel ⟨[], .hash, [.main .a, .main .b]⟩ none).addReel
      ⟨[], .blank, [.aux .b, .aux .b, .blank]⟩ none).addCounter 5
    (∃ made, σ.make .matcher ⟨0⟩ ⟨1⟩ (some ⟨0⟩) none = .ok made ∧
      (made.run σ.machines.next).result = .ok false ∧
      ((made.run σ.machines.next).store.machines.get σ.machines.next).ticks = 7 ∧
      ((made.run σ.machines.next).store.counters.get ⟨0⟩).value = 19) ∧
    CommandLine.Exit.ofCommandLine ["run", "-n", "3", "-m", " +2"] false default =
      .ok { code := 0
            stdout := "Result: true\nn=3\nm=2\nSteps: 20\nPredicted steps: 20\n" } := by
  intro σ
  constructor
  · obtain ⟨made, hmade⟩ : ∃ made, σ.make .matcher ⟨0⟩ ⟨1⟩ (some ⟨0⟩) none = .ok made :=
      Store.make_eq_ok (by decide) _ _
    have hlaid : Laid ⟨σ.tape ⟨0⟩, σ.tape ⟨1⟩⟩ [.a, .b] [.b, .b] [] :=
      { main_focus := rfl, main_right := rfl, block_ne_nil := by decide, rest_head := rfl
        aux_left := ⟨0, rfl⟩, aux_focus := rfl, aux_right := ⟨1, rfl⟩, word_ne_nil := by decide }
    obtain ⟨hcosts, -⟩ := run_cost_le_matcherSteps σ ⟨0⟩ ⟨1⟩ (some ⟨0⟩) none false default
    obtain ⟨-, hresult, hticks, hvalue, -⟩ := (hcosts hmade).2 _ _ _ hlaid rfl
    exact ⟨made, hmade, hresult, hticks, hvalue ⟨0⟩ (.inl rfl)⟩
  · have hthree : Text.readInt? "3" = some ((3 : Nat) : Int) := by decide +kernel
    have htwo : Text.readInt? " +2" = some ((2 : Nat) : Int) := by decide +kernel
    obtain ⟨-, hanswers⟩ := run_cost_le_matcherSteps σ ⟨0⟩ ⟨1⟩ none none false default
    exact (hanswers 3 2 (by decide) (by decide) _ _ hthree htwo).1 (by decide) (by decide)

/-- **The run command prints nothing for a block that no text can be.** The length of the block is one
more than the greatest length of a text, and that of the word is one. -/
theorem run_of_tooLong_block :
    Text.readInt? "9223372036854775808" = some 9223372036854775808 ∧
      CommandLine.Exit.ofCommandLine ["run", "-n", "9223372036854775808", "-m", "1"] false
        default = .error .tooLong := by
  have hone : Text.readInt? "1" = some ((1 : Nat) : Int) := by decide +kernel
  have hlong : Text.readInt? "9223372036854775808" = some ((0x8000000000000000 : Nat) : Int) := by
    decide +kernel
  exact ⟨hlong, CommandLine.Exit.ofCommandLine_run_tooLong hlong hone (by decide) (by decide)
    (.inl (Nat.le_refl _)) false default⟩

end SubseqMachines.Matcher
