import SubseqMachines.Proofs.Tape.Calls
import SubseqMachines.Proofs.Trial.Clones

/-!
# The operations of a machine

What a step costs is the number of operations that the heads make in it. This module says which
operations these are, on each of the two tapes and in which order: a machine that works on its own
tapes makes one or two, and a trial that runs a child makes those of the child's run.

* `Operations`: the calls made on a main tape and on an aux tape.
* `Device.performed`: the operations of a run, told by those of its steps.
* `Control.operations`: the operations of one step of a machine of any kind.
* `Outcome.Performs`: the cost of an outcome and its tapes are those of operations.
* `Control.performs_run`: so are those of a run that is no trial's.
* `Control.cost_step`, `Control.toTapes_step_of_operations`: the cost of a step is that of its
  operations, also if it fails, and they lead to the tapes that it leaves.
-/

namespace SubseqMachines

/-! ## Operations on two tapes -/

/-- The calls that are made on a main tape and on an aux tape, each in order. -/
structure Operations where
  main : List Call := []
  aux : List Call := []
  deriving DecidableEq, Repr

namespace Operations

/-- Calls on the tape of one side. -/
def on (side : Side) (cs : List Call) : Operations :=
  match side with
  | .main => { main := cs }
  | .aux => { aux := cs }

/-- Operations and then more of them. -/
def followedBy (p q : Operations) : Operations :=
  ⟨p.main ++ q.main, p.aux ++ q.aux⟩

/-- The number of operations on each tape. A call that only looks at a tape is none. -/
def cost (p : Operations) : Cost :=
  ⟨p.main.countP Call.counts, p.aux.countP Call.counts⟩

@[simp] theorem cost_empty : ({} : Operations).cost = 0 := rfl

@[simp] theorem cost_followedBy (p q : Operations) : (p.followedBy q).cost = p.cost + q.cost := by
  simp only [followedBy, cost, List.countP_append]
  rfl

end Operations

/-- The tapes after operations. -/
def Tapes.after (t : Tapes) (p : Operations) : Tapes :=
  ⟨t.main.calls p.main, t.aux.calls p.aux⟩

theorem Tapes.after_followedBy (t : Tapes) (p q : Operations) :
    t.after (p.followedBy q) = (t.after p).after q := by
  simp only [after, Operations.followedBy, Tape.calls, List.foldl_append]

/-- The outcome of work that started on the bench `b` is that of the operations `p`. -/
structure Outcome.Performs {σ : Type} (b : Bench) (p : Operations) (o : Outcome σ) : Prop where
  cost : o.cost = p.cost
  tapes : o.bench.toTapes = b.toTapes.after p

theorem Outcome.Performs.followedBy {σ : Type} {b : Bench} {p q : Operations} {o o' : Outcome σ}
    (h : o.Performs b p) (h' : o'.Performs o.bench q) :
    (o.followedBy o').Performs b (p.followedBy q) where
  cost := by
    rw [Operations.cost_followedBy, ← h.cost, ← h'.cost]
    rfl
  tapes := by
    rw [Tapes.after_followedBy, ← h.tapes]
    exact h'.tapes

/-! ## The operations of a run -/

/-- The operations of a run, told by those of its steps. A step that fails makes some, too. -/
def Device.performed {σ : Type} [Device σ] (steps : σ → Bench → Operations) (s : σ) (b : Bench) :
    Operations :=
  if hs : Device.halted s = true then {}
  else if hf : (Device.step s b).fault = none then
    have := Device.remaining_step (by simpa using hs) hf
    (steps s b).followedBy (performed steps (Device.step s b).state (Device.step s b).bench)
  else steps s b
termination_by Device.remaining s b.toTapes

namespace Control

/-- The kind of the child that the next step runs, if it runs one. -/
def child? : Control → Option MachineKind
  | trial s => Trial.child? s
  | _ => none

/-- The operations of a step that runs no child. -/
def ownOperations : Control → Bench → Operations
  | matcher s, _ => .on (Matcher.side s) [.move (Matcher.direction s), .read]
  | sampler .scan, _ => .on .main [.move .right, .read]
  | sampler .extend, b =>
    .on .aux (.move .right :: (b.coin.flip?.map fun r => .write (.aux (.ofFlip r.1))).toList)
  | sampler .rewind, _ => .on .aux [.move .left, .read]
  | sampler .accept, _ => {}
  | trial _, _ => .on .main [.read]

/-- The operations of a step: the machine's own, or those of the run of a child. A child that cannot
be made makes none. -/
def operations (c : Control) (b : Bench) : Operations :=
  match c.child? with
  | none => c.ownOperations b
  | some kind =>
    if kind.refusal? b.toTapes = none then Device.performed ownOperations kind.start b else {}

/-! ## The operations of a step -/

theorem performs_afterRead {σ : Type} {kind : MachineKind} {s : σ} {b : Bench}
    {next : Cell → Option σ} (side : Side) (d : Tape.Direction) :
    (Outcome.afterRead kind side s (b.move side d) (.on side 2) next).Performs b
      (.on side [.move d, .read]) where
  cost := by
    rw [Outcome.afterRead]
    split <;> cases side <;> rfl
  tapes := by
    rw [Outcome.bench_afterRead]
    cases side <;> rfl

/-- What a machine that is no trial makes in a step, it makes on its own tapes. -/
theorem performs_step {c : Control} (hkind : c.kind ≠ .trial) (hc : Device.halted c = false)
    (b : Bench) : (Device.step c b).Performs b (c.ownOperations b) := by
  cases c with
  | matcher s =>
    have h : (Matcher.transition s b).Performs b (.on (Matcher.side s) _) := performs_afterRead _ _
    exact ⟨h.cost, h.tapes⟩
  | sampler s =>
    suffices h : (Sampler.transition s b).Performs b ((sampler s).ownOperations b) from
      ⟨h.cost, h.tapes⟩
    cases s with
    | scan => exact performs_afterRead .main .right
    | rewind => exact performs_afterRead .aux .left
    | accept => cases hc
    | extend =>
      -- the letter is written only if there is a flip for it
      rw [Sampler.transition, Sampler.extend, ownOperations, Coin.flip]
      cases b.coin.flip? with
      | none => exact ⟨rfl, rfl⟩
      | some r => exact ⟨rfl, rfl⟩
  | trial s => exact absurd rfl hkind

/-- **So it does in a run.** -/
theorem performs_run {c : Control} (hkind : c.kind ≠ .trial) (b : Bench) :
    (Device.run c b).Performs b (Device.performed ownOperations c b) := by
  induction hn : Device.remaining c b.toTapes using Nat.strongRecOn generalizing c b with
  | ind n ih =>
    by_cases hc : Device.halted c = true
    · rw [Device.run_of_halted hc, Device.performed, dif_pos hc]
      exact ⟨rfl, rfl⟩
    · have hlive := Bool.eq_false_iff.mpr hc
      have hstep := performs_step hkind hlive b
      rw [Device.performed, dif_neg hc]
      by_cases hf : (Device.step c b).fault = none
      · -- the rest of the run is one of a machine of the same kind
        have hlt := Device.remaining_step hlive hf
        rw [Device.run_of_step hlive hf, dif_pos hf]
        exact hstep.followedBy (ih _ (hn ▸ hlt) (by rwa [kind_step]) _ rfl)
      · rw [Device.run_of_fault hlive hf, dif_neg hf]
        exact hstep

/-- A step of a trial that runs no child reads a cell of the main tape. -/
theorem performs_step_of_no_child {c : Control} (hchild : c.child? = none)
    (hc : Device.halted c = false) (b : Bench) :
    (Device.step c b).Performs b (c.ownOperations b) := by
  by_cases hkind : c.kind = .trial
  · match c with
    | trial (.drawn .boundary w v) =>
      suffices h : (Trial.look w v b).Performs b (.on .main [.read]) from ⟨h.cost, h.tapes⟩
      rw [Trial.look]
      split <;> exact ⟨rfl, rfl⟩
  · exact performs_step hkind hc b

/-- The child of a trial makes operations, unless it is refused. -/
theorem operations_of_child {c : Control} {kind : MachineKind} (hchild : c.child? = some kind)
    (b : Bench) :
    c.operations b =
      if kind.refusal? b.toTapes = none then Device.performed ownOperations kind.start b
      else {} := by
  rw [operations, hchild]

theorem exists_trial_of_child {c : Control} {kind : MachineKind} (hchild : c.child? = some kind) :
    ∃ s, c = trial s ∧ Trial.child? s = some kind ∧ kind.start.kind ≠ .trial := by
  match c with
  | trial s =>
    obtain ⟨-, -, hkind⟩ := Trial.delegates_of_child hchild
    exact ⟨s, rfl, hchild, by rwa [kind_start]⟩

/-- **The cost of a step is that of its operations**, also if it fails. -/
theorem cost_step {c : Control} (hc : Device.halted c = false) (b : Bench) :
    (Device.step c b).cost = (c.operations b).cost := by
  cases hchild : c.child? with
  | none =>
    rw [operations, hchild]
    exact (performs_step_of_no_child hchild hc b).cost
  | some kind =>
    obtain ⟨s, rfl, hs, hstart⟩ := exists_trial_of_child hchild
    rw [operations_of_child hchild]
    -- the trial takes the cost of its child over, also from one that fails
    show (Trial.transition s b).cost = _
    cases hr : kind.refusal? b.toTapes with
    | some r =>
      rw [Trial.transition_of_refused hs hr, if_neg nofun]
      rfl
    | none =>
      rw [(Trial.transition_of_child hs hr).cost, if_pos rfl]
      exact (performs_run hstart b).cost

/-- The operations of a step lead to the tapes that it leaves, unless it is given up because a child
fails. -/
theorem toTapes_step_of_operations {c : Control} {b : Bench} (hc : Device.halted c = false)
    (hkept : c.child? = none ∨ (Device.step c b).fault = none) :
    (Device.step c b).bench.toTapes = b.toTapes.after (c.operations b) := by
  cases hchild : c.child? with
  | none =>
    rw [operations, hchild]
    exact (performs_step_of_no_child hchild hc b).tapes
  | some kind =>
    -- a child that has succeeded leaves its tapes to the trial
    have hf := hkept.resolve_left (by rw [hchild]; exact nofun)
    obtain ⟨s, rfl, hs, hstart⟩ := exists_trial_of_child hchild
    rw [operations_of_child hchild]
    change (Trial.transition s b).fault = none at hf
    show (Trial.transition s b).bench.toTapes = _
    cases hr : kind.refusal? b.toTapes with
    | some r =>
      rw [Trial.transition_of_refused hs hr] at hf
      cases hf
    | none =>
      have htold := Trial.transition_of_child hs hr
      rw [(htold.succeeded (htold.fault.symm.trans hf)).1, if_pos rfl]
      exact (performs_run hstart b).tapes

end Control

end SubseqMachines
