import SubseqMachines.Coin.Twister
import SubseqMachines.Fault

/-!
# Coins

A coin gives one flip after another. A scripted coin replays a list of flips and then has none left;
a seeded coin takes the top bit of each output of a generator, and never ends.

What the generators start from that have no seed is given from outside.

* `Coin.flip?` is one flip and the coin after it, `Coin.flips?` a number of flips;
* `flips?_scripted`: a script gives its flips in order, and no more of them than it has.
-/

namespace SubseqMachines

/-- A source of flips. -/
inductive Coin where
  | scripted (flips : List Bool)
  | seeded (generator : Twister)
  deriving DecidableEq, Repr

instance : Inhabited Coin := ⟨.scripted []⟩

/-- The generators that have no seed but start from wherever chance has put them. -/
structure Chance where
  /-- The generator of the coin that machines share. -/
  common : Twister
  /-- The generator of a coin that is made without a seed. -/
  unseeded : Twister
  deriving Inhabited

namespace Coin

/-- The coin of a seed. -/
def ofSeed (seed : Int) : Coin :=
  seeded (.ofSeed seed)

/-- The coin of a seed, or that of a generator without one. -/
def ofSeed? (seed : Option Int) (unseeded : Twister) : Coin :=
  seeded (seed.elim unseeded .ofSeed)

/-- One flip and the coin after it, unless the script is used up. -/
def flip? : Coin → Option (Bool × Coin)
  | scripted [] => none
  | scripted (f :: fs) => some (f, scripted fs)
  | seeded g =>
    let (word, g) := g.next
    some (word >>> 31 = 1, seeded g)

/-- One flip, or the fault of a coin that has none left. -/
def flip (c : Coin) : Except Fault (Bool × Coin) :=
  c.flip?.elim (.error (.breakdown .coinExhausted)) .ok

/-- A number of flips and the coin after them, if there are so many. -/
def flips? : Nat → Coin → Option (List Bool × Coin)
  | 0, c => some ([], c)
  | n + 1, c => do
    let (f, c) ← c.flip?
    let (fs, c) ← flips? n c
    return (f :: fs, c)

/-! ## Laws -/

@[simp] theorem flip?_scripted_cons (f : Bool) (fs : List Bool) :
    (scripted (f :: fs)).flip? = some (f, scripted fs) := rfl

@[simp] theorem flip?_scripted_nil : (scripted []).flip? = none := rfl

/-- A script gives its flips in order, and no more of them than it has. -/
theorem flips?_scripted (n : Nat) (fs : List Bool) :
    flips? n (scripted fs) =
      if n ≤ fs.length then some (fs.take n, scripted (fs.drop n)) else none := by
  induction n generalizing fs with
  | zero => simp [flips?]
  | succ n ih =>
    cases fs with
    | nil => simp [flips?]
    | cons f fs => by_cases h : n ≤ fs.length <;> simp [flips?, ih, h]

end Coin

end SubseqMachines
