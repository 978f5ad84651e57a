import SubseqMachines.Matcher
import SubseqMachines.Proofs.Store.UseUp

/-!
# A trial as a plain loop

A trial lets its sampler and its matchers work on clones of its reels. The same can be tried without
clones: use up a sampler on the two reels, and then, as long as the main head is on a `#`, use up a
matcher on the reels that the machine before has given back.

* `Trial.length_right_useUp_lt`: each matcher takes cells off what is ahead of the main head, so
  that the loop ends on any tapes.
* `Trial.testBlocks`, `Trial.inPlace`: the loop, and the whole of it with the sampler.
* `Trial.testBlocks_of_blank`, `Trial.testBlocks_of_hash`, `Trial.testBlocks_of_no_end`: the loop by
  the cell under the main head.
-/

namespace SubseqMachines.Trial

theorem tape_read (σ : Store) (r k : Handle Reel) : (σ.read r).2.tape k = σ.tape k := by
  show (((σ.count (σ.counterOf r) 1).setTape r (id (σ.tape r))).reels.get k).tape = _
  rw [Store.setTape, Table.get_set]
  split
  · rename_i hk
    rw [hk]
    rfl
  · rw [Store.reels_count]
    rfl

theorem tapes_read (σ : Store) (r : Handle Reel) (mount : Mount) :
    (σ.read r).2.tapes mount = σ.tapes mount := by
  rw [Store.tapes, tape_read, tape_read]
  rfl

/-- A matcher that is used up has moved the main head into its block. -/
theorem length_right_useUp_lt {σ : Store} {mount : Mount} {counter : Option (Handle Counter)}
    {coin : Option (Handle Coin)} {used : Store.Used}
    (h : σ.useUp .matcher mount.main mount.aux counter coin = .ok used) :
    (used.store.tape used.mount.main).right.length < (σ.tape mount.main).right.length := by
  have hrun := Control.run_matcher .nextLetter (σ.startBench .matcher coin mount)
  cases hr : MachineKind.matcher.refusal? (σ.tapes mount) with
  | some r =>
    rw [Store.useUp_of_refusal hr] at h
    cases h
  | none =>
    cases hf : (Device.run MachineKind.matcher.start (σ.startBench .matcher coin mount)).fault with
    | some f =>
      rw [Store.useUp_of_fault hr hf] at h
      cases h
    | none =>
      -- what is on the reels now is what the run of the matcher has left
      obtain ⟨made, used', -, hused, -, hmount, heffect⟩ :=
        Store.exists_useUp counter (by decide) hr hf
      obtain rfl : used' = used := Except.ok.inj (hused.symm.trans h)
      have htape := congrArg Tapes.main heffect.tapes
      rw [hmount]
      show (used'.store.tapes mount).main.right.length < _
      rw [htape]
      show (Device.run (Control.matcher .nextLetter) _).bench.main.right.length < _
      rw [hrun]
      exact Matcher.length_right_run_lt (b := σ.startBench .matcher coin mount) hr

/-- What is left of a trial in place: its verdict, the number of matchers that were used up, the
reels and the store. -/
structure Ending where
  accepted : Bool
  tests : Nat
  mount : Mount
  store : Store

/-- As long as the main head is on a `#`, use up a matcher on the reels. Stop at a blank, or when a
matcher has rejected. -/
def testBlocks (σ : Store) (mount : Mount) (counter : Option (Handle Counter)) (tests : Nat) :
    Except Fault Ending :=
  let looked := (σ.read mount.main).2
  match (σ.read mount.main).1 with
  | .blank => .ok { accepted := true, tests, mount, store := looked }
  | .hash =>
    match hused : looked.useUp .matcher mount.main mount.aux counter none with
    | .error f => .error f
    | .ok used =>
      have := tape_read σ mount.main mount.main ▸ length_right_useUp_lt hused
      if used.accepted then testBlocks used.store used.mount counter (tests + 1)
      else .ok { accepted := false, tests := tests + 1, mount := used.mount, store := used.store }
  | c => .error (.breakdown (.noBoundary c))
termination_by (σ.tape mount.main).right.length

/-- A sampler is used up on the reels, and then matchers as long as there are blocks. -/
def inPlace (σ : Store) (main aux : Handle Reel) (counter : Option (Handle Counter))
    (coin : Option (Handle Coin)) : Except Fault Ending := do
  let used ← σ.useUp .sampler main aux counter coin
  testBlocks used.store used.mount counter 0

theorem testBlocks_of_blank {σ : Store} {mount : Mount} (h : (σ.tape mount.main).focus = .blank)
    (counter : Option (Handle Counter)) (v : Nat) :
    testBlocks σ mount counter v =
      .ok { accepted := true, tests := v, mount, store := (σ.read mount.main).2 } := by
  have hcell : (σ.read mount.main).1 = .blank := h
  rw [testBlocks, hcell]

theorem testBlocks_of_hash {σ : Store} {mount : Mount} (h : (σ.tape mount.main).focus = .hash)
    (counter : Option (Handle Counter)) (v : Nat) :
    testBlocks σ mount counter v =
      match (σ.read mount.main).2.useUp .matcher mount.main mount.aux counter none with
      | .error f => .error f
      | .ok used =>
        if used.accepted then testBlocks used.store used.mount counter (v + 1)
        else
          .ok { accepted := false, tests := v + 1, mount := used.mount, store := used.store } := by
  have hcell : (σ.read mount.main).1 = .hash := h
  rw [testBlocks, hcell]
  simp only
  split <;> simp_all

theorem testBlocks_of_no_end {σ : Store} {mount : Mount}
    (h : (σ.tape mount.main).focus.isBlockEnd = false) (counter : Option (Handle Counter))
    (v : Nat) :
    testBlocks σ mount counter v =
      .error (.breakdown (.noBoundary (σ.tape mount.main).focus)) := by
  have hcell : (σ.read mount.main).1 = (σ.tape mount.main).focus := rfl
  rw [testBlocks, hcell]
  cases hc : (σ.tape mount.main).focus <;> simp_all [Cell.isBlockEnd]

end SubseqMachines.Trial
