import SubseqMachines.Machine.Control
import SubseqMachines.Proofs.Sampler.Invariant
import SubseqMachines.Proofs.Subsequence.Spelling

/-!
# Machines of any kind

What holds of a step and of a run whatever the kind of the machine is, and where the kinds differ.

* `Control.run_matcher`, `Control.run_sampler`, `Control.run_trial`: a run of a machine is a run of
  the machine's own kind.
* `Control.kind_step`, `Control.ticks_step`: a step keeps the kind and is one step.
* `Control.kind_start`, `Control.halted_start`: a machine starts as one of its kind, and not in a
  final state.
* `Control.coin_step`, `Matcher.run_withCoin`: the coin of the bench plays no part in the work of a
  matcher.
* `Trial.draw_of_run`, `Trial.draw_of_fault`, `Trial.test_of_run`: what a step that runs a child
  takes over from it. Nothing is ever wrong with the tapes that a sampler has left.
* `Trial.fault_draw_cases`, `Trial.fault_test_cases`: such a step fails with its child only.
* `Control.gaveUp_step`: so a step that fails has not taken anything over.
* `Control.toTapes_step`: a step that runs a child and fails leaves the tapes as they are.
-/

namespace SubseqMachines

theorem Outcome.ticks_afterRead {σ : Type} (kind : MachineKind) (side : Side) (s : σ) (b : Bench)
    (cost : Cost) (next : Cell → Option σ) : (afterRead kind side s b cost next).ticks = 1 := by
  rw [afterRead]
  split <;> rfl

/-- A read that fails has nothing to do with children. -/
theorem Outcome.isLate_afterRead {σ : Type} {kind : MachineKind} {side : Side} {s : σ} {b : Bench}
    {cost : Cost} {next : Cell → Option σ} {f : Fault}
    (hf : (afterRead kind side s b cost next).fault = some f) : f.isLate = false := by
  cases hnext : next (b.on side).focus with
  | some s' => simp [afterRead, hnext] at hf
  | none =>
    simp only [afterRead, hnext, Option.some.injEq] at hf
    rw [← hf]
    rfl

/-! ## Children of a trial -/

namespace Trial

section Adopt

variable {σ : Type} {s : State} {b : Bench} {child : Outcome σ}
  {next : σ → Tapes → Except Breakdown State}

theorem ticks_adopt : (adopt s b child next).ticks = 1 := by
  rw [adopt]
  split
  · rfl
  · split <;> rfl

theorem state_adopt (hf : (adopt s b child next).fault ≠ none) :
    (adopt s b child next).state = s := by
  rw [adopt] at hf ⊢
  cases hchild : child.fault with
  | some f => rfl
  | none =>
    cases hnext : next child.state child.bench.toTapes with
    | error f => rfl
    | ok s' =>
      simp only [hchild, hnext] at hf
      exact absurd rfl hf

/-- A child that fails leaves the tapes of the trial as they were before it started. -/
theorem toTapes_adopt (hchild : child.fault ≠ none) :
    (adopt s b child next).bench.toTapes = b.toTapes := by
  obtain ⟨f, hf⟩ := Option.ne_none_iff_exists'.mp hchild
  rw [adopt, hf]

end Adopt

section Children

variable {b : Bench}

/-- **Nothing is wrong with the tapes that a sampler has left**: the trial finds the aux head where it
has to be, and a word. -/
theorem drawnFrom_of_run (hr : Sampler.refusal? b.toTapes = none)
    (hf : (Device.run Sampler.State.scan b).fault = none) :
    let t := (Device.run Sampler.State.scan b).bench.toTapes
    drawnFrom t = .ok (.drawn .boundary t.aux.decodeWord 0) := by
  intro t
  obtain ⟨hfocus, word, hne, hword⟩ := Sampler.exists_word_of_run hr hf
  refine drawnFrom_eq_ok_iff.mpr ⟨hfocus, ?_, rfl⟩
  intro hempty
  have hspelled := congrArg String.toList (hword.symm.trans hempty)
  rw [toList_spell, String.toList_empty, List.map_eq_nil_iff] at hspelled
  exact hne hspelled

/-- The sampler of a trial has succeeded. -/
theorem draw_of_run (hr : Sampler.refusal? b.toTapes = none)
    (hf : (Device.run Sampler.State.scan b).fault = none) :
    let child := Device.run Sampler.State.scan b
    draw b =
      { state := .drawn .boundary child.bench.aux.decodeWord 0, bench := child.bench
        cost := child.cost, trace := child.trace ++ [.witness child.bench.aux.decodeWord] } := by
  intro child
  rw [draw, hr]
  simp only [adopt, hf, drawnFrom_of_run hr hf]
  rfl

/-- The sampler of a trial has failed: its flips and its operations are spent. -/
theorem draw_of_fault {f : Fault} (hr : Sampler.refusal? b.toTapes = none)
    (hf : (Device.run Sampler.State.scan b).fault = some f) :
    let child := Device.run Sampler.State.scan b
    draw b =
      { state := .drawing, bench := { b with coin := child.bench.coin }, cost := child.cost
        trace := child.trace, fault := some f } := by
  intro child
  rw [draw, hr]
  simp only [adopt, hf, State.witness?, Option.map_none, Option.toList_none, List.append_nil]
  rfl

theorem fault_draw_of_fault {f : Fault} (hr : Sampler.refusal? b.toTapes = none)
    (hf : (Device.run Sampler.State.scan b).fault = some f) : (draw b).fault = some f := by
  rw [draw_of_fault hr hf]

/-- A matcher of a trial has succeeded. -/
theorem test_of_run (witness : String) (v : Nat) (hr : Matcher.refusal? b.toTapes = none)
    (hf : (Device.run Matcher.State.nextLetter b).fault = none) :
    let child := Device.run Matcher.State.nextLetter b
    test witness v b =
      { state := .drawn (if child.state = .accept then .boundary else .reject) witness (v + 1)
        bench := child.bench, cost := child.cost, trace := child.trace } := by
  intro child
  rw [test, hr]
  simp only [adopt, hf]
  rfl

theorem fault_test_of_refusal {r : Refusal} (witness : String) (v : Nat)
    (hr : Matcher.refusal? b.toTapes = some r) :
    (test witness v b).fault = some (.refusal r) := by
  rw [test, hr]
  rfl

theorem fault_test_of_fault {f : Fault} (witness : String) (v : Nat)
    (hr : Matcher.refusal? b.toTapes = none)
    (hf : (Device.run Matcher.State.nextLetter b).fault = some f) :
    (test witness v b).fault = some f := by
  rw [test, hr]
  simp only [adopt, hf]

/-- A step that draws fails if the sampler refuses the tapes or fails on them. -/
theorem fault_draw_cases {f : Fault} (hf : (draw b).fault = some f) :
    (∃ r, Sampler.refusal? b.toTapes = some r ∧ f = .refusal r) ∨
      Sampler.refusal? b.toTapes = none ∧ (Device.run Sampler.State.scan b).fault = some f := by
  cases hr : Sampler.refusal? b.toTapes with
  | some r =>
    rw [draw, hr] at hf
    exact .inl ⟨r, rfl, (Option.some.inj hf).symm⟩
  | none =>
    cases hchild : (Device.run Sampler.State.scan b).fault with
    | none =>
      rw [draw_of_run hr hchild] at hf
      cases hf
    | some g => exact .inr ⟨rfl, (fault_draw_of_fault hr hchild).symm.trans hf⟩

/-- A step that tests fails if the matcher refuses the tapes or fails on them. -/
theorem fault_test_cases {witness : String} {v : Nat} {f : Fault}
    (hf : (test witness v b).fault = some f) :
    (∃ r, Matcher.refusal? b.toTapes = some r ∧ f = .refusal r) ∨
      Matcher.refusal? b.toTapes = none ∧
        (Device.run Matcher.State.nextLetter b).fault = some f := by
  cases hr : Matcher.refusal? b.toTapes with
  | some r =>
    exact .inl ⟨r, rfl, Option.some.inj (hf.symm.trans (fault_test_of_refusal witness v hr))⟩
  | none =>
    cases hchild : (Device.run Matcher.State.nextLetter b).fault with
    | none =>
      rw [test_of_run witness v hr hchild] at hf
      cases hf
    | some g => exact .inr ⟨rfl, (fault_test_of_fault witness v hr hchild).symm.trans hf⟩

/-- A look at a cell that can stand between two blocks. -/
theorem look_of_stage (witness : String) (v : Nat) {stage : Stage}
    (h : afterBoundary? b.main.focus = some stage) :
    look witness v b = { state := .drawn stage witness v, bench := b, cost := .on .main 1 } := by
  simp only [look, h]

end Children

theorem ticks_draw (b : Bench) : (draw b).ticks = 1 := by
  rw [draw]
  split
  · rfl
  · exact ticks_adopt

theorem ticks_test (witness : String) (v : Nat) (b : Bench) : (test witness v b).ticks = 1 := by
  rw [test]
  split
  · rfl
  · exact ticks_adopt

theorem toTapes_draw {b : Bench} (hf : (draw b).fault ≠ none) :
    (draw b).bench.toTapes = b.toTapes := by
  cases hr : Sampler.refusal? b.toTapes with
  | some r => rw [draw, hr]; rfl
  | none =>
    by_cases hchild : (Device.run Sampler.State.scan b).fault = none
    · rw [draw_of_run hr hchild] at hf
      exact absurd rfl hf
    · rw [draw, hr]
      exact toTapes_adopt hchild

theorem state_draw_of_fault {b : Bench} (hf : (draw b).fault ≠ none) :
    (draw b).state = .drawing := by
  rw [draw] at hf ⊢
  cases hr : Sampler.refusal? b.toTapes with
  | some r => rfl
  | none =>
    simp only [hr] at hf
    exact state_adopt hf

theorem toTapes_test {witness : String} {v : Nat} {b : Bench}
    (hf : (test witness v b).fault ≠ none) : (test witness v b).bench.toTapes = b.toTapes := by
  cases hr : Matcher.refusal? b.toTapes with
  | some r => rw [test, hr]; rfl
  | none =>
    by_cases hchild : (Device.run Matcher.State.nextLetter b).fault = none
    · rw [test_of_run witness v hr hchild] at hf
      exact absurd rfl hf
    · rw [test, hr]
      exact toTapes_adopt hchild

theorem state_test_of_fault {witness : String} {v : Nat} {b : Bench}
    (hf : (test witness v b).fault ≠ none) :
    (test witness v b).state = .drawn .verify witness v := by
  rw [test] at hf ⊢
  cases hr : Matcher.refusal? b.toTapes with
  | some r => rfl
  | none =>
    simp only [hr] at hf
    exact state_adopt hf

end Trial

/-! ## Steps and runs of any machine -/

namespace Matcher

theorem coin_step (s : State) (b : Bench) : (Device.step s b).bench.coin = b.coin := by
  show (transition s b).bench.coin = b.coin
  rw [transition, Outcome.bench_afterRead]
  cases s <;> rfl

theorem coin_run (s : State) (b : Bench) : (Device.run s b).bench.coin = b.coin :=
  Device.run_bench_induction (P := fun c => c.coin = b.coin)
    (fun s c h => (coin_step s c).trans h) s rfl

theorem isLate_step (s : State) (b : Bench) (f : Fault) (hf : (Device.step s b).fault = some f) :
    f.isLate = false :=
  Outcome.isLate_afterRead hf

end Matcher

theorem Sampler.isLate_step (s : State) (b : Bench) (f : Fault)
    (hf : (Device.step s b).fault = some f) : f.isLate = false := by
  change (transition s b).fault = some f at hf
  cases s with
  | scan | rewind => exact Outcome.isLate_afterRead hf
  | extend =>
    unfold transition extend Coin.flip at hf
    cases hflip : b.coin.flip? with
    | none =>
      simp only [hflip, Option.elim_none, Option.some.injEq] at hf
      rw [← hf]
      rfl
    | some r => simp [hflip] at hf
  | accept => cases hf

namespace Trial

/-- No step of a trial finds anything wrong with the tapes that it has taken over. -/
theorem isLate_step (s : State) (b : Bench) (f : Fault) (hf : (Device.step s b).fault = some f) :
    f.isLate = false := by
  change (transition s b).fault = some f at hf
  match s with
  | .drawing =>
    obtain ⟨r, -, rfl⟩ | ⟨-, hchild⟩ := fault_draw_cases hf
    · rfl
    · exact Device.isLate_run Sampler.isLate_step hchild
  | .drawn .boundary witness v =>
    change (look witness v b).fault = some f at hf
    unfold look at hf
    split at hf
    · cases hf
    · obtain rfl := Option.some.inj hf
      rfl
  | .drawn .verify witness v =>
    obtain ⟨r, -, rfl⟩ | ⟨-, hchild⟩ := fault_test_cases hf
    · rfl
    · exact Device.isLate_run Matcher.isLate_step hchild
  | .drawn .accept witness v => cases hf
  | .drawn .reject witness v => cases hf

end Trial

namespace Control

theorem run_matcher (s : Matcher.State) (b : Bench) :
    Device.run (matcher s) b = (Device.run s b).map matcher :=
  Device.run_map matcher id (fun _ => rfl) step_matcher s b

theorem run_sampler (s : Sampler.State) (b : Bench) :
    Device.run (sampler s) b = (Device.run s b).map sampler :=
  Device.run_map sampler id (fun _ => rfl) step_sampler s b

theorem run_trial (s : Trial.State) (b : Bench) :
    Device.run (trial s) b = (Device.run s b).map trial :=
  Device.run_map trial id (fun _ => rfl) step_trial s b

theorem kind_step (c : Control) (b : Bench) : (Device.step c b).state.kind = c.kind := by
  cases c <;> rfl

theorem kind_start (kind : MachineKind) : kind.start.kind = kind := by
  cases kind <;> rfl

theorem halted_start (kind : MachineKind) : Device.halted kind.start = false := by
  cases kind <;> rfl

theorem delegates_of_ne_trial {c : Control} (hc : c.kind ≠ .trial) : c.delegates = false := by
  cases c with
  | matcher s => rfl
  | sampler s => rfl
  | trial s => exact absurd rfl hc

/-- Each transition from a state that is not final is one step. -/
theorem ticks_step {c : Control} {b : Bench} (hc : Device.halted c = false) :
    (Device.step c b).ticks = 1 := by
  cases c with
  | matcher s =>
    show (Matcher.transition s b).ticks = 1
    exact Outcome.ticks_afterRead _ _ _ _ _ _
  | sampler s =>
    show (Sampler.transition s b).ticks = 1
    cases s with
    | scan | rewind => exact Outcome.ticks_afterRead _ _ _ _ _ _
    | extend =>
      rw [Sampler.transition, Sampler.extend]
      split <;> rfl
    | accept => exact absurd hc (by simp [Device.halted, Sampler.State.halted])
  | trial s =>
    show (Trial.transition s b).ticks = 1
    cases s with
    | drawing => exact Trial.ticks_draw b
    | drawn stage w v =>
      cases stage with
      | boundary =>
        rw [Trial.transition, Trial.look]
        split <;> rfl
      | verify => exact Trial.ticks_test w v b
      | accept | reject => exact absurd hc (by simp [Device.halted, Trial.State.halted])

theorem coin_step {c : Control} (hc : c.kind = .matcher) (b : Bench) :
    (Device.step c b).bench.coin = b.coin := by
  cases c with
  | matcher s => exact Matcher.coin_step s b
  | sampler s => simp [kind] at hc
  | trial s => simp [kind] at hc

/-- **A step that fails has not taken anything over.** -/
theorem gaveUp_step (c : Control) (b : Bench) :
    (Device.step c b).gaveUp = (Device.step c b).fault.isSome := by
  cases hf : (Device.step c b).fault with
  | none => rw [Outcome.gaveUp, hf]; rfl
  | some f =>
    have hearly : f.isLate = false := by
      cases c with
      | matcher s => exact Matcher.isLate_step s b f hf
      | sampler s => exact Sampler.isLate_step s b f hf
      | trial s => exact Trial.isLate_step s b f hf
    rw [Outcome.gaveUp, hf, Option.any_some, hearly]
    rfl

theorem toTapes_step {c : Control} {b : Bench} (hc : c.delegates = true)
    (hf : (Device.step c b).fault ≠ none) : (Device.step c b).bench.toTapes = b.toTapes := by
  match c with
  | trial .drawing => exact Trial.toTapes_draw hf
  | trial (.drawn .verify w v) => exact Trial.toTapes_test hf
  | matcher s => simp [delegates] at hc
  | sampler s => simp [delegates] at hc
  | trial (.drawn .boundary w v) => simp [delegates] at hc
  | trial (.drawn .accept w v) => simp [delegates] at hc
  | trial (.drawn .reject w v) => simp [delegates] at hc

end Control

/-! ## A matcher has no use for a coin -/

/-- The bench with another coin. -/
def Bench.withCoin (c : Coin) (b : Bench) : Bench :=
  { b with coin := c }

namespace Matcher

theorem transition_withCoin (s : State) (b : Bench) (c : Coin) :
    transition s (b.withCoin c) = (transition s b).onBench (Bench.withCoin c) := by
  have hmove : (b.withCoin c).move (side s) (direction s) =
      (b.move (side s) (direction s)).withCoin c := by
    cases s <;> rfl
  have hread : ((b.move (side s) (direction s)).withCoin c).on (side s) =
      (b.move (side s) (direction s)).on (side s) := by
    cases s <;> rfl
  -- the cell that is read is the same, so both sides take the same branch
  rw [transition, transition, hmove, Outcome.afterRead, Outcome.afterRead, hread]
  cases next? s ((b.move (side s) (direction s)).on (side s)).focus <;> rfl

theorem run_withCoin (s : State) (b : Bench) (c : Coin) :
    Device.run s (b.withCoin c) = (Device.run s b).onBench (Bench.withCoin c) := by
  refine Device.run_map id (Bench.withCoin c) (fun _ => rfl) ?_ s b
  intro s b
  have htransition : Device.transition s (b.withCoin c) =
      (Device.transition s b).onBench (Bench.withCoin c) := transition_withCoin s b c
  rw [id_eq, Device.step, htransition]
  rfl

end Matcher

end SubseqMachines
