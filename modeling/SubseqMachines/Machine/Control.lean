import SubseqMachines.Trial

/-!
# Machines of any kind

What a machine of any of the three kinds is about to do: its kind and its state.

* `Control` is the sum of the three kinds' states, and again a device;
* `MachineKind.refusal?` and `MachineKind.start` check the tapes and give the first state;
* `Control.name`, `Control.code`, `Control.accepted` show the state;
* `step_matcher`, `step_sampler`, `step_trial`: a step is a step of the machine's own kind.
-/

namespace SubseqMachines

/-- The state of a machine of some kind. -/
inductive Control where
  | matcher (s : Matcher.State)
  | sampler (s : Sampler.State)
  | trial (s : Trial.State)
  deriving DecidableEq, Repr

instance : Inhabited Control := ⟨.matcher .nextLetter⟩

/-! ## Starting -/

namespace MachineKind

/-- Why a machine of a kind cannot start on the tapes, if it cannot. -/
def refusal? : MachineKind → Tapes → Option Refusal
  | matcher => Matcher.refusal?
  | sampler => Sampler.refusal?
  | trial => Trial.refusal?

/-- The state in which a machine of a kind starts. -/
def start : MachineKind → Control
  | matcher => .matcher .nextLetter
  | sampler => .sampler .scan
  | trial => .trial .drawing

/-- No machine accepts one tape in both places. -/
theorem refusal?_self_ne_none (kind : MachineKind) (t : Tape) : kind.refusal? ⟨t, t⟩ ≠ none := by
  intro h
  cases kind with
  | matcher =>
    -- the cell under the head would be a `#` and a blank
    obtain ⟨hhash, -, hblank, -⟩ := Matcher.refusal?_eq_none_iff_met.mp h
    exact absurd (hhash.symm.trans hblank) (by simp)
  | sampler =>
    -- a letter would follow the head, and all cells would be blank
    obtain ⟨-, -, hletter, -, hall⟩ := Sampler.refusal?_eq_none_iff_met.mp h
    obtain ⟨l, f, r⟩ := t
    rcases r with _ | ⟨_ | _ | _ | _, r⟩ <;> simp_all [Cell.isMainLetter, Tape.cells]
  | trial =>
    obtain ⟨-, -, hblocks, -, hall⟩ := Trial.refusal?_eq_none_iff_met.mp h
    obtain ⟨l, f, r⟩ := t
    rcases r with _ | ⟨_ | _ | _ | _, r⟩ <;> simp_all [Trial.afterBlocks?, Tape.cells]

end MachineKind

/-! ## Showing -/

namespace Control

/-- The kind of a machine. -/
def kind : Control → MachineKind
  | matcher _ => .matcher
  | sampler _ => .sampler
  | trial _ => .trial

/-- The name of the state. -/
def name : Control → String
  | matcher s => s.name
  | sampler s => s.name
  | trial s => s.phase.name

/-- The number of the state. -/
def code : Control → Nat
  | matcher s => s.code
  | sampler s => s.code
  | trial s => s.phase.code

/-- Whether the machine has accepted. -/
def accepted : Control → Bool
  | matcher s => s = .accept
  | sampler s => s = .accept
  | trial s => s.phase = .accept

/-- The witness of a trial, once it is drawn. -/
def witness? : Control → Option String
  | trial s => s.witness?
  | _ => none

/-- The number of blocks a trial has verified. -/
def verified : Control → Nat
  | trial s => s.verified
  | _ => 0

/-- Whether the next step runs a child machine. -/
def delegates : Control → Bool
  | trial .drawing => true
  | trial (.drawn .verify _ _) => true
  | _ => false

/-! ## Steps -/

/-- One transition of the machine's kind. -/
def transition (c : Control) (b : Bench) : Outcome Control :=
  match c with
  | matcher s => (Device.transition s b).map matcher
  | sampler s => (Device.transition s b).map sampler
  | trial s => (Device.transition s b).map trial

instance : Device Control where
  halted
    | matcher s => Device.halted s
    | sampler s => Device.halted s
    | trial s => Device.halted s
  event
    | matcher s => Device.event s
    | sampler s => Device.event s
    | trial s => Device.event s
  transition := transition
  remaining
    | matcher s => Device.remaining s
    | sampler s => Device.remaining s
    | trial s => Device.remaining s
  remaining_transition {c b} hs hf := by
    cases c with
    | matcher s => exact Device.remaining_transition (s := s) hs hf
    | sampler s => exact Device.remaining_transition (s := s) hs hf
    | trial s => exact Device.remaining_transition (s := s) hs hf

theorem step_matcher (s : Matcher.State) (b : Bench) :
    Device.step (matcher s) b = (Device.step s b).map matcher := rfl

theorem step_sampler (s : Sampler.State) (b : Bench) :
    Device.step (sampler s) b = (Device.step s b).map sampler := rfl

theorem step_trial (s : Trial.State) (b : Bench) :
    Device.step (trial s) b = (Device.step s b).map trial := rfl

end Control

end SubseqMachines
