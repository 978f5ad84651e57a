import Mathlib.Algebra.BigOperators.Group.List.Basic
import SubseqMachines.Proofs.Trial.Verdict

/-!
# The cost of a trial

* `Trial.total_spent`: what the sampler and the tests of a number of blocks cost together.
* `Trial.run_cost`: the number of blocks that a trial tests, the number of its steps, and what its
  counter tallies. Only the work of its children and the looks between two blocks are counted.
-/

namespace SubseqMachines.Trial

theorem total_spent (first word : List Letter) (later : List (List Letter)) (v : Nat) :
    (spent first later word v).total = 6 * first.length + 2 +
      ((later.take v).map fun block => 2 * block.length + 4 * matched word block + 7).sum := by
  -- the operations on the main tape and those on the aux tape, block by block
  have hsum : ((later.take v).map fun block => 2 * block.length + 4 * matched word block + 7).sum =
      ((later.take v).map fun block => 2 * block.length + 3).sum +
        ((later.take v).map fun block => 4 * (matched word block + 1)).sum := by
    rw [← List.sum_map_add]
    congr 2
    funext block
    omega
  rw [hsum]
  show 2 * first.length + 2 + _ + (4 * first.length + _) = _
  omega

theorem total_looked_final (p : Prop) [Decidable p] :
    (looked (if p then .accept else .reject)).total = if p then 1 else 0 := by
  split <;> rfl

theorem steps_final (v : Nat) (p : Prop) [Decidable p] :
    steps v (if p then .accept else .reject) = 2 * v + if p then 2 else 1 := by
  split <;> rfl

/-- **The cost of a trial.** Let `counter` be the counter of all operations of a trial. The trial
tests all later blocks, or those up to the first one that does not contain its word. The counter
tallies `6L + 2` operations for a first block of `L` letters, `2n + 4k + 7` for each block that is
tested, where `n` is its length and `k` that of the longest prefix of the word that it contains,
and one more if the trial accepts. -/
theorem run_cost {σ made : Store} {main aux : Handle Reel} {own : Option (Handle Counter)}
    {coin : Option (Handle Coin)} (hmade : σ.make .trial main aux own coin = .ok made)
    {first : List Letter} {later : List (List Letter)}
    (hlaid : Laid ⟨σ.tape main, σ.tape aux⟩ first later) {flips : List Bool} {left : Coin}
    (hflips : (σ.coins.get (coin.getD Store.commonCoin)).flips? first.length = some (flips, left))
    {counter : Handle Counter}
    (hcounter : own = some counter ∨
      own = none ∧ σ.counterOf main = some counter ∧ σ.counterOf aux = some counter) :
    let word := flips.map Letter.ofFlip
    let r := made.run σ.machines.next
    let m := r.store.machines.get σ.machines.next
    let blocks := later.take m.control.verified
    let accepted := ∀ block ∈ later, word.Sublist block
    (accepted → m.control.verified = later.length) ∧
      (∀ (i : Nat) (hi : i < later.length), (∀ block ∈ later.take i, word.Sublist block) →
        ¬ word.Sublist later[i] → m.control.verified = i + 1) ∧
      (∀ block, IsGreatest {k | k ≤ word.length ∧ (word.take k).Sublist block}
        (matched word block)) ∧
      (r.store.counters.get counter).value = (σ.counters.get counter).value +
        (6 * first.length + 2 +
          (blocks.map fun block => 2 * block.length + 4 * matched word block + 7).sum +
          if accepted then 1 else 0 : Nat) ∧
      m.ticks = 2 * m.control.verified + if accepted then 2 else 1 := by
  intro word r m blocks accepted
  obtain ⟨mount, rfl, rfl, hm⟩ := Store.exists_made hmade
  have hword : flips.map Letter.ofFlip = word := rfl
  obtain ⟨⟨mount', hworked⟩, -⟩ := exists_worked_run hm hlaid hflips hword
  obtain ⟨-, hstate, -, hticks, hcost⟩ :=
    run_of_laid (b := σ.startBench .trial coin mount) hlaid hflips hword
  -- the number of blocks is kept in the state of the machine
  have hverified : m.control.verified = tested word later := by
    show (r.store.machines.get σ.machines.next).control.verified = _
    rw [hworked.machine]
    simp only [Store.after, Outcome.map, hstate]
    rfl
  refine ⟨?_, ?_, isGreatest_matched word, ?_, ?_⟩
  · exact fun hall => hverified.trans (tested_of_forall hall)
  · exact fun i hi hall hnot => hverified.trans (tested_of_not_sublist hi hall hnot)
  · -- both reels are counted on the counter, from the making of the trial on
    have hboth : made.counterOf mount.main = some counter ∧
        made.counterOf mount.aux = some counter := by
      rw [hm.main_counter, hm.aux_counter]
      rcases hcounter with rfl | ⟨rfl, hmain, haux⟩
      · exact ⟨rfl, rfl⟩
      · rw [hmain, haux]
        exact ⟨rfl, rfl⟩
    have hvalue := hworked.effect.counters counter
    rw [Store.tally_of_both hboth.1 hboth.2, hm.counters] at hvalue
    refine hvalue.trans ?_
    simp only [Outcome.map, hcost, Cost.total_add, total_spent, total_looked_final, blocks,
      hverified, accepted]
  · show (r.store.machines.get σ.machines.next).ticks = _
    rw [hworked.machine, hverified]
    simp only [Store.after, hm.machine, Outcome.map, hticks, steps_final, Nat.zero_add, accepted]

/-- The blocks `ab`, `bab` and `abb` and the flips that spell `ab`. -/
theorem run_cost_ab_bab_abb :
    let σ := (((({} : Store).addReel
      ⟨[.blank], .blank, [.main .a, .main .b, .hash, .main .b, .main .a, .main .b, .hash, .main .a,
        .main .b, .main .b]⟩ none).addReel ⟨[], .blank, []⟩ none).addCoin
      (.scripted [true, false])).addCounter 0
    ∃ made, σ.make .trial ⟨0⟩ ⟨1⟩ (some ⟨0⟩) none = .ok made ∧
      ((made.run σ.machines.next).store.counters.get ⟨0⟩).value = 57 ∧
      ((made.run σ.machines.next).store.machines.get σ.machines.next).ticks = 6 := by
  intro σ
  obtain ⟨made, hmade⟩ : ∃ made, σ.make .trial ⟨0⟩ ⟨1⟩ (some ⟨0⟩) none = .ok made :=
    Store.make_eq_ok (by decide) _ _
  have hlaid : Laid ⟨σ.tape ⟨0⟩, σ.tape ⟨1⟩⟩ [.a, .b] [[.b, .a, .b], [.a, .b, .b]] :=
    { main_left := ⟨1, rfl⟩, main_focus := rfl, main_right := ⟨0, rfl⟩, first_ne_nil := by decide
      later_ne_nil := by decide, aux_blank := ⟨0, 0, rfl⟩ }
  have hflips : (σ.coins.get (Option.getD none Store.commonCoin)).flips? 2 =
      some ([true, false], .scripted []) := rfl
  obtain ⟨hall, -, -, hvalue, hticks⟩ := run_cost hmade hlaid hflips (.inl rfl)
  have hverified := hall (by decide)
  rw [hverified] at hvalue hticks
  exact ⟨made, hmade, hvalue, hticks⟩

end SubseqMachines.Trial
