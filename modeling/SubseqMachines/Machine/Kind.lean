import SubseqMachines.Symbol

/-!
# The machines and their states

Three machines work on a main tape and an aux tape.

* The **matcher**, M1, decides whether the aux word is a subsequence of the block after the main
  head.
* The **sampler**, M2, writes a random aux word as long as the block after the main head.
* The **trial**, M3, lets a sampler draw a witness on the first block and a matcher test it against
  each later block.

Each machine has a finite set of states, and each state a name and a number. A trial also holds,
once it has drawn it, the witness and the number of blocks it has verified.
-/

namespace SubseqMachines

/-! ## Kinds -/

/-- The three kinds of machine. -/
inductive MachineKind where
  | matcher
  | sampler
  | trial
  deriving DecidableEq, Repr, Inhabited

namespace MachineKind

/-- The short name of a kind, in state lines and most messages. -/
def label : MachineKind → String
  | matcher => "M1"
  | sampler => "M2"
  | trial => "M3"

/-- The long name of a kind, in messages about the use of a machine. -/
def title : MachineKind → String
  | matcher => "Verifier"
  | sampler => "Generator"
  | trial => "Orchestrator"

end MachineKind

/-- The two tapes of a machine. -/
inductive Side where
  | main
  | aux
  deriving DecidableEq, Repr

/-- The name of a side in messages. -/
def Side.name : Side → String
  | main => "main"
  | aux => "aux"

/-! ## States -/

namespace Matcher

/-- The states of a matcher. -/
inductive State where
  /-- Step the aux head right and look at the letter. -/
  | nextLetter
  /-- Scan the main tape for the letter. -/
  | seek (l : Letter)
  /-- The word is used up: walk the aux head back to its start. -/
  | rewindMatched
  /-- The block is used up: walk the aux head back, then reject. -/
  | rewindUnmatched
  /-- Skip the rest of the block. -/
  | drain
  | accept
  | reject
  deriving DecidableEq, Repr

namespace State

/-- The name of a state. -/
def name : State → String
  | nextLetter => "S_NEXT_LETTER"
  | seek l => "S_SEEK_" ++ l.name
  | rewindMatched => "S_REWIND_MATCHED"
  | rewindUnmatched => "S_REWIND_UNMATCHED"
  | drain => "S_DRAIN"
  | accept => "S_ACCEPT"
  | reject => "S_REJECT"

/-- The number of a state. -/
def code : State → Nat
  | nextLetter => 0
  | seek .a => 1
  | seek .b => 2
  | rewindMatched => 3
  | rewindUnmatched => 4
  | drain => 5
  | accept => 6
  | reject => 7

/-- Whether a matcher has reached its verdict. -/
def halted : State → Bool
  | accept => true
  | reject => true
  | _ => false

end State

end Matcher

namespace Sampler

/-- The states of a sampler. -/
inductive State where
  /-- Step the main head right and look whether another letter of the block is there. -/
  | scan
  /-- Step the aux head right and write the letter that the coin gives. -/
  | extend
  /-- Walk the aux head back to its start. -/
  | rewind
  | accept
  deriving DecidableEq, Repr

namespace State

/-- The name of a state. -/
def name : State → String
  | scan => "S_SCAN"
  | extend => "S_EXTEND"
  | rewind => "S_REWIND"
  | accept => "S_ACCEPT"

/-- The number of a state. -/
def code : State → Nat
  | scan => 0
  | extend => 1
  | rewind => 2
  | accept => 3

/-- Whether a sampler is done. -/
def halted : State → Bool
  | accept => true
  | _ => false

end State

end Sampler

namespace Trial

/-- The phases of a trial. -/
inductive Phase where
  /-- Let a sampler draw the witness. -/
  | generate
  /-- Look at the main cell between two blocks. -/
  | boundary
  /-- Let a matcher test the witness against the next block. -/
  | verify
  | accept
  | reject
  deriving DecidableEq, Repr

namespace Phase

/-- The name of a phase. -/
def name : Phase → String
  | generate => "S_GENERATE"
  | boundary => "S_BOUNDARY"
  | verify => "S_VERIFY"
  | accept => "S_ACCEPT"
  | reject => "S_REJECT"

/-- The number of a phase. -/
def code : Phase → Nat
  | generate => 0
  | boundary => 1
  | verify => 2
  | accept => 3
  | reject => 4

end Phase

/-- What a trial does once the witness is drawn. -/
inductive Stage where
  | boundary
  | verify
  | accept
  | reject
  deriving DecidableEq, Repr

/-- The phase of a stage. -/
def Stage.phase : Stage → Phase
  | boundary => .boundary
  | verify => .verify
  | accept => .accept
  | reject => .reject

/-- The states of a trial: the witness and the number of verified blocks exist once the witness is
drawn. -/
inductive State where
  | drawing
  | drawn (stage : Stage) (witness : String) (verified : Nat)
  deriving DecidableEq, Repr

namespace State

/-- The phase of a trial in a state. -/
def phase : State → Phase
  | drawing => .generate
  | drawn stage _ _ => stage.phase

/-- The witness, once it is drawn. -/
def witness? : State → Option String
  | drawing => none
  | drawn _ witness _ => some witness

/-- The number of blocks that a matcher has given its verdict on. -/
def verified : State → Nat
  | drawing => 0
  | drawn _ _ n => n

/-- Whether a trial has reached its verdict. -/
def halted : State → Bool
  | drawn .accept _ _ => true
  | drawn .reject _ _ => true
  | _ => false

end State

end Trial

end SubseqMachines
