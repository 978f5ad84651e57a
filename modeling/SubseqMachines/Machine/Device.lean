import SubseqMachines.Coin.Basic
import SubseqMachines.Machine.Event
import SubseqMachines.Tape.Basic

/-!
# Devices

A device is what the three kinds of machine have in common: states, of which some are final, and one
transition from each other state, on a bench of two tapes and a coin. A transition is a step of
finite cost; it can fail, and then it may have moved a head already. Whatever the tapes hold, a
device cannot go on for ever: a number that falls with each step bounds what is left of its run.

* `Outcome` tells what a step or a run has done: where it ends, what it cost, what it reported;
* `Device.step` is one step together with its report;
* `Device.run` goes on until the state is final or a step fails;
* `Device.run_of_halted`, `Device.run_of_fault` and `Device.run_of_step` take a run apart.
-/

namespace SubseqMachines

/-! ## What a device works on -/

/-- Two tapes and a coin. -/
structure Bench extends Tapes where
  coin : Coin
  deriving DecidableEq, Repr, Inhabited

/-- The bench with the head of one tape moved. -/
def Bench.move (b : Bench) (side : Side) (d : Tape.Direction) : Bench :=
  match side with
  | .main => { b with main := b.main.move d }
  | .aux => { b with aux := b.aux.move d }

/-- The number of head operations on each tape. -/
structure Cost where
  main : Nat
  aux : Nat
  deriving DecidableEq, Repr, Inhabited

namespace Cost

instance : Zero Cost := ⟨⟨0, 0⟩⟩

instance : Add Cost := ⟨fun c d => ⟨c.main + d.main, c.aux + d.aux⟩⟩

/-- The operations on both tapes together. -/
def total (c : Cost) : Nat :=
  c.main + c.aux

/-- A number of operations on one tape. -/
def on (side : Side) (n : Nat) : Cost :=
  match side with
  | .main => ⟨n, 0⟩
  | .aux => ⟨0, n⟩

@[simp] theorem main_zero : (0 : Cost).main = 0 := rfl

@[simp] theorem aux_zero : (0 : Cost).aux = 0 := rfl

@[simp] theorem main_add (c d : Cost) : (c + d).main = c.main + d.main := rfl

@[simp] theorem aux_add (c d : Cost) : (c + d).aux = c.aux + d.aux := rfl

@[simp] theorem total_add (c d : Cost) : (c + d).total = c.total + d.total := by
  simp only [total, main_add, aux_add]; omega

@[simp] theorem total_on (side : Side) (n : Nat) : (on side n).total = n := by
  cases side <;> simp [on, total]

@[simp] theorem zero_add (c : Cost) : 0 + c = c := by
  obtain ⟨m, a⟩ := c
  show Cost.mk (0 + m) (0 + a) = _
  simp

@[simp] theorem add_zero (c : Cost) : c + 0 = c := rfl

theorem add_assoc (c d e : Cost) : c + d + e = c + (d + e) := by
  show Cost.mk _ _ = Cost.mk _ _
  simp [Nat.add_assoc]

end Cost

/-! ## What a step or a run has done -/

/-- Where a step or a run ends, the number of its steps, their cost, what was reported in order, and
the fault it ends with, if it fails. -/
structure Outcome (σ : Type) where
  state : σ
  bench : Bench
  ticks : Nat := 1
  cost : Cost := 0
  trace : List Event := []
  fault : Option Fault := none
  deriving DecidableEq, Repr

namespace Outcome

variable {σ : Type}

/-- Nothing done. -/
def still (s : σ) (b : Bench) : Outcome σ :=
  { state := s, bench := b, ticks := 0 }

/-- One outcome and then another, which starts where the first one ends. -/
def followedBy (o p : Outcome σ) : Outcome σ :=
  { p with ticks := o.ticks + p.ticks, cost := o.cost + p.cost, trace := o.trace ++ p.trace }

/-- Whether a step has failed before it took over what a child has done. -/
def gaveUp (o : Outcome σ) : Bool :=
  o.fault.any (!·.isLate)

/-- The same with the state seen as one of a larger type. -/
def map {τ : Type} (f : σ → τ) (o : Outcome σ) : Outcome τ :=
  { o with state := f o.state }

/-- The cell under a head is read: the next state is the one that the cell calls for, and a cell
that calls for none is a breakdown. -/
def afterRead (kind : MachineKind) (side : Side) (s : σ) (b : Bench) (cost : Cost)
    (next : Cell → Option σ) : Outcome σ :=
  let cell := (b.on side).focus
  match next cell with
  | some s => { state := s, bench := b, cost }
  | none => { state := s, bench := b, cost, fault := some (.breakdown (.foreign kind side cell)) }

/-- A read that does not fail leaves the bench and goes to the state that the cell calls for. -/
theorem afterRead_of_fault_eq_none {kind : MachineKind} {side : Side} {s : σ} {b : Bench}
    {cost : Cost} {next : Cell → Option σ} (h : (afterRead kind side s b cost next).fault = none) :
    ∃ s', next (b.on side).focus = some s' ∧
      afterRead kind side s b cost next = { state := s', bench := b, cost } := by
  unfold afterRead at h ⊢
  cases hn : next (b.on side).focus with
  | none => simp [hn] at h
  | some s' => exact ⟨s', rfl, by simp [hn]⟩

@[simp] theorem bench_afterRead (kind : MachineKind) (side : Side) (s : σ) (b : Bench) (cost : Cost)
    (next : Cell → Option σ) : (afterRead kind side s b cost next).bench = b := by
  unfold afterRead
  cases hn : next (b.on side).focus <;> simp [hn]

theorem gaveUp_of_fault_eq_none {o : Outcome σ} (h : o.fault = none) : o.gaveUp = false := by
  rw [gaveUp, h, Option.any_none]

@[simp] theorem still_followedBy (s : σ) (b : Bench) (o : Outcome σ) :
    (still s b).followedBy o = o := by
  simp [still, followedBy]

theorem followedBy_assoc (o p q : Outcome σ) :
    (o.followedBy p).followedBy q = o.followedBy (p.followedBy q) := by
  simp [followedBy, Nat.add_assoc, Cost.add_assoc]

end Outcome

/-! ## Devices -/

/-- States with final ones among them, a transition and a bound on what is left of a run. -/
class Device (σ : Type) where
  /-- Whether a state is final. -/
  halted : σ → Bool
  /-- What is reported of a state. -/
  event : σ → Event
  /-- The transition from a state that is not final. -/
  transition : σ → Bench → Outcome σ
  /-- A number of steps after which a run is over, whatever the coin gives. -/
  remaining : σ → Tapes → Nat
  /-- Each step that does not fail brings the end of the run nearer. -/
  remaining_transition {s : σ} {b : Bench} : halted s = false → (transition s b).fault = none →
    remaining (transition s b).state (transition s b).bench.toTapes < remaining s b.toTapes

namespace Device

variable {σ : Type} [Device σ]

/-- One step: the transition, with a report of the state it starts in and of a final state it ends
in. -/
def step (s : σ) (b : Bench) : Outcome σ :=
  let o := transition s b
  let last := if o.fault.isNone && halted o.state then [event o.state] else []
  { o with trace := event s :: o.trace ++ last }

theorem remaining_step {s : σ} {b : Bench} (hs : halted s = false)
    (hf : (step s b).fault = none) :
    remaining (step s b).state (step s b).bench.toTapes < remaining s b.toTapes :=
  remaining_transition hs hf

/-! ### Runs -/

/-- Go on until the state is final or a step fails, after steps of a given number and cost with a
given trace. All traces are backwards. -/
private def runBackwards (s : σ) (b : Bench) (ticks : Nat) (cost : Cost) (trace : List Event) :
    Outcome σ :=
  if hs : halted s = true then { state := s, bench := b, ticks, cost, trace }
  else
    let o := step s b
    let ticks := ticks + o.ticks
    let cost := cost + o.cost
    let trace := o.trace.reverse ++ trace
    if hf : o.fault = none then
      have := remaining_step (by simpa using hs) hf
      runBackwards o.state o.bench ticks cost trace
    else { o with ticks, cost, trace }
termination_by remaining s b.toTapes

/-- Go on until the state is final or a step fails. -/
def run (s : σ) (b : Bench) : Outcome σ :=
  let o := runBackwards s b 0 0 []
  { o with trace := o.trace.reverse }

/-- What was done before does not change what is done from now on. -/
private theorem runBackwards_eq (s : σ) (b : Bench) (ticks : Nat) (cost : Cost)
    (trace : List Event) :
    runBackwards s b ticks cost trace =
      { run s b with
        ticks := ticks + (run s b).ticks, cost := cost + (run s b).cost
        trace := (run s b).trace.reverse ++ trace } := by
  induction hn : remaining s b.toTapes using Nat.strongRecOn generalizing s b ticks cost trace with
  | ind n ih =>
    rw [run, runBackwards, runBackwards]
    by_cases hs : halted s = true
    · simp [hs]
    · by_cases hf : (step s b).fault = none
      -- both sides go on from the same step, with the same extra ticks, cost and trace
      · have hlt := remaining_step (Bool.not_eq_true _ ▸ hs) hf
        simp only [hs, hf, dite_true]
        rw [ih _ (hn ▸ hlt) _ _ _ _ _ rfl, ih _ (hn ▸ hlt) _ _ (0 + _) _ _ rfl]
        simp [Nat.add_assoc, Cost.add_assoc]
      · simp [hs, hf]

/-- A run from a final state does nothing. -/
theorem run_of_halted {s : σ} (h : halted s = true) (b : Bench) : run s b = .still s b := by
  rw [run, runBackwards]
  simp [h, Outcome.still]

/-- A run ends with the first step that fails. -/
theorem run_of_fault {s : σ} {b : Bench} (hs : halted s = false) (hf : (step s b).fault ≠ none) :
    run s b = step s b := by
  rw [run, runBackwards]
  simp [hs, hf]

/-- A run is a step, and then the run from there. -/
theorem run_of_step {s : σ} {b : Bench} (hs : halted s = false) (hf : (step s b).fault = none) :
    run s b = (step s b).followedBy (run (step s b).state (step s b).bench) := by
  rw [run, runBackwards]
  simp [hs, hf, runBackwards_eq, Outcome.followedBy]

/-- What each step keeps true of the bench, a run keeps true of it, whether it fails or not. -/
theorem run_bench_induction {P : Bench → Prop} (hstep : ∀ (s : σ) b, P b → P (step s b).bench)
    (s : σ) {b : Bench} (hb : P b) : P (run s b).bench := by
  induction hn : remaining s b.toTapes using Nat.strongRecOn generalizing s b with
  | ind n ih =>
    cases hs : halted s with
    | true => simpa [run_of_halted hs, Outcome.still] using hb
    | false =>
      by_cases hf : (step s b).fault = none
      · rw [run_of_step hs hf]
        exact ih _ (hn ▸ remaining_step hs hf) _ (hstep s b hb) rfl
      · rw [run_of_fault hs hf]
        exact hstep s b hb

end Device

end SubseqMachines
