import SubseqMachines.Machine.Kind

/-!
# Trace events

A machine reports each state that it works in, and its final state when it reaches it. A trial also
reports the witness, and the check command reports its arguments as they are shown. An event has a
text and a source, the name of the part that reports it.
-/

namespace SubseqMachines

/-- What is reported while the machines work. -/
inductive Event where
  | matcher (s : Matcher.State)
  | sampler (s : Sampler.State)
  | trial (p : Trial.Phase)
  | witness (word : String)
  | check (text seed : String)
  deriving DecidableEq, Repr

namespace Event

/-- The part that reports an event. -/
def source : Event → String
  | matcher _ => "verifier"
  | sampler _ => "generator"
  | trial _ => "orchestrator"
  | witness _ => "orchestrator"
  | check _ _ => "cli"

/-- The text of an event. -/
def text : Event → String
  | matcher s => s!"{MachineKind.matcher.label} {s.name}"
  | sampler s => s!"{MachineKind.sampler.label} {s.name}"
  | trial p => s!"{MachineKind.trial.label} {p.name}"
  | witness word => s!"{MachineKind.trial.label} witness {word}"
  | check text seed => s!"check {text} seed={seed}"

/-- An event as one line. -/
def line (e : Event) : String :=
  s!"{e.source}: {e.text}"

end Event

end SubseqMachines
