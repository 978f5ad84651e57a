import SubseqMachines.Machine.Kind
import SubseqMachines.Text.Quoted

/-!
# Faults

What can go wrong, as causes. Most are in one of three classes.

* A **refusal**: a tape, a machine or a command is not made, because its input is not acceptable.
* A **breakdown**: a running machine meets a tape that its transitions do not cover, its coin has no
  flip left, or a child of it has left tapes that it must not leave.
* A **misuse**: a machine is used outside its life of one run that ends with the surrender of the
  tapes.

Apart from these, a machine without tapes cannot be shown, a number that is given as nothing cannot
be worked with, and a text cannot have more characters than can be counted.

`Fault.message` gives the wording of each cause.
-/

namespace SubseqMachines

/-- Why an input is not acceptable. -/
inductive Refusal where
  /-- No cell of a tape to be made carries the head. -/
  | noHead
  /-- More than one cell of a tape to be made carries the head. -/
  | manyHeads
  /-- A character spells no main-tape symbol. -/
  | mainCharacter (c : Char)
  /-- A character spells no aux-tape symbol. -/
  | auxCharacter (c : Char)
  /-- The head of a tape is not on a blank. -/
  | headNotBlank (kind : MachineKind) (side : Side)
  /-- A cell left of the head of a tape is not blank. -/
  | leftNotBlank (kind : MachineKind) (side : Side)
  /-- A cell of a tape that has to be blank is not. -/
  | notBlank (kind : MachineKind) (side : Side)
  /-- The main head of a matcher is not on a `#`. -/
  | noHash
  /-- No block follows the main head of a matcher. -/
  | noBlock
  /-- No word follows the aux head of a matcher. -/
  | noWord
  /-- Something other than blanks follows the word of a matcher. -/
  | afterWord
  /-- No word follows the main head of a sampler. -/
  | nothingToSample
  /-- The word after the main head of a sampler is not closed. -/
  | openSample
  /-- A trial's main tape has an empty block. -/
  | emptyBlock
  /-- Something other than blanks follows the last block of a trial. -/
  | afterBlocks
  /-- A matcher is asked for without a word. -/
  | wordMissing
  /-- There is no machine of this name. -/
  | unknownMachine (name : String)
  /-- The name of the machine is given as nothing. -/
  | namelessMachine
  /-- A length that has to be at least one is not. -/
  | lengths
  deriving DecidableEq, Repr

/-- What a running machine cannot go on from. -/
inductive Breakdown where
  /-- A machine reads a cell that its transitions do not cover. -/
  | foreign (kind : MachineKind) (side : Side) (cell : Cell)
  /-- A trial reads something other than the end of a block. -/
  | noBoundary (cell : Cell)
  /-- The coin has no flip left. -/
  | coinExhausted
  /-- The sampler of a trial has left the aux head on something other than a blank. -/
  | strayedHead
  /-- The sampler of a trial has written no word. -/
  | emptyWitness
  deriving DecidableEq, Repr

/-- How a machine is used outside its life. -/
inductive Misuse where
  /-- The machine has surrendered its tapes. -/
  | destroyed (kind : MachineKind)
  /-- The machine has ticked before it is run. -/
  | rerun (kind : MachineKind)
  /-- The trial has drawn no witness yet. -/
  | noWitness
  deriving DecidableEq, Repr

/-- Anything that can go wrong. -/
inductive Fault where
  | refusal (r : Refusal)
  | breakdown (b : Breakdown)
  | misuse (m : Misuse)
  /-- The tapes of a machine that has surrendered them are to be shown. -/
  | nothingToShow
  /-- A length that is to be compared is given as nothing. -/
  | noLength
  /-- The seed of a coin is given as nothing. -/
  | noSeed
  /-- A text would have more characters than can be counted. -/
  | tooLong
  deriving DecidableEq, Repr

/-- The name of a tape in messages, such as `M1 aux tape`. -/
def tapeName (kind : MachineKind) (side : Side) : String :=
  s!"{kind.label} {side.name} tape"

/-- The wording of a refusal. -/
def Refusal.message : Refusal → String
  | noHead => "Tape must have a head"
  | manyHeads => "Tape can only have one head"
  | mainCharacter c => s!"Invalid character {Text.quoted (String.singleton c)} in main tape text"
  | auxCharacter c => s!"Invalid character {Text.quoted (String.singleton c)} in aux word"
  | headNotBlank kind side => s!"{tapeName kind side} head must be empty"
  | leftNotBlank kind side =>
    s!"{tapeName kind side} must only have empty cells on the left of the head"
  | notBlank kind side => s!"{tapeName kind side} must be blank"
  | noHash => "M1 main tape head must be on a #"
  | noBlock => "M1 main tape head must precede a non-empty block"
  | noWord => "M1 aux tape must hold a non-empty word after the head"
  | afterWord => "M1 aux tape must only have empty cells after the word"
  | nothingToSample => "M2 main tape head must be followed by a non-empty word"
  | openSample => "M2 main tape word must be followed by a # or the end of the input"
  | emptyBlock => "M3 main tape blocks must be non-empty"
  | afterBlocks => "M3 main tape must only have empty cells after the last block"
  | wordMissing => "M1 needs an aux word"
  | unknownMachine name => s!"Unknown machine {Text.quoted name}"
  | namelessMachine => "Unknown machine []"
  | lengths => "n and m must both be at least 1"

/-- The wording of a breakdown. -/
def Breakdown.message : Breakdown → String
  | foreign kind side cell => s!"{kind.label} read {cell.name} from the {side.name} tape"
  | noBoundary cell => s!"M3 expected a block boundary, read {cell.name}"
  | coinExhausted => "Scripted coin ran out of flips"
  | strayedHead => "M2 did not return the aux head to its sentinel"
  | emptyWitness => "M2 produced an empty witness"

/-- The wording of a misuse. -/
def Misuse.message : Misuse → String
  | destroyed kind => s!"{kind.title} was already destroyed"
  | rerun kind => s!"{kind.title} cannot be run more than once"
  | noWitness => "M3 has not drawn a witness yet"

/-- The wording of a fault. -/
def Fault.message : Fault → String
  | refusal r => r.message
  | breakdown b => b.message
  | misuse m => m.message
  | nothingToShow => "'NoneType' object has no attribute 'cells'"
  | noLength => "'<' not supported between instances of 'list' and 'int'"
  | noSeed =>
    "The only supported seed types are: None,\nint, float, str, bytes, and bytearray."
  | tooLong => "cannot fit 'int' into an index-sized integer"

/-- Whether a fault is found only when a child's tapes have been taken over already. -/
def Fault.isLate : Fault → Bool
  | breakdown .strayedHead => true
  | breakdown .emptyWitness => true
  | _ => false

end SubseqMachines
