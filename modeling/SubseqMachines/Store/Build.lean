import SubseqMachines.Store.Machines

/-!
# Machines from texts

A machine is built from a text for the main tape, a word if it is a matcher, and a seed for its coin
if it flips one, or a generator if there is no seed. It gets a new counter. The kinds are named
`m1`, `m2` and `m3`.
-/

namespace SubseqMachines

/-- The kind that a name stands for. -/
def MachineKind.ofName? : String → Option MachineKind
  | "m1" => some .matcher
  | "m2" => some .sampler
  | "m3" => some .trial
  | _ => none

/-- The tapes that a machine of a kind starts from. A matcher needs a word. -/
def MachineKind.layout (kind : MachineKind) (text : String) (word : Option String) :
    Except Fault Tapes :=
  match kind with
  | .matcher =>
    let word := word.getD ""
    if word.isEmpty then .error (.refusal .wordMissing) else matcherTapes text word
  | .sampler => samplerTapes text
  | .trial => trialTapes text

/-- A machine that has been built, and its counter. -/
structure Built where
  store : Store
  machine : Handle Machine
  counter : Handle Counter

/-- Enter a machine of a kind on new reels with the given tapes, and a counter and a coin for it. -/
def Store.enter (σ : Store) (kind : MachineKind) (t : Tapes) (coin : Coin) : Except Fault Built :=
  let counter := σ.counters.next
  let main := σ.reels.next
  let counted := (σ.addCounter 0).addReel t.main none
  let aux := counted.reels.next
  let ready := (counted.addReel t.aux none).addCoin coin
  match ready.make kind main aux (some counter) (some σ.coins.next) with
  | .error r => .error (.refusal r)
  | .ok made => .ok { store := made, machine := ready.machines.next, counter }

/-- Build a machine of the named kind. -/
def Store.build (σ : Store) (name text : String) (word : Option String) (seed : Option Int)
    (unseeded : Twister) : Except Fault Built :=
  match MachineKind.ofName? name with
  | none => .error (.refusal (.unknownMachine name))
  | some kind => do σ.enter kind (← kind.layout text word) (.ofSeed? seed unseeded)

end SubseqMachines
