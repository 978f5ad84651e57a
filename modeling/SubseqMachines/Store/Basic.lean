import SubseqMachines.Machine.Control
import SubseqMachines.Store.Table

/-!
# The store

Counters, coins, tapes and machines that several parties can hold at once. Each is kept in a table
and named by its handle, so a change that one holder makes is what every other holder sees.

* A `Counter` tallies head operations.
* A `Reel` is a tape together with the counter that its operations are counted on, if any.
* A `Machine` holds two different reels until it surrenders them, a coin if it needs one, and
  perhaps a counter of its own.

The operations on counters, coins and reels are here; those on machines are built on top of them.
-/

namespace SubseqMachines

/-! ## What is kept -/

/-- A tally of head operations. -/
structure Counter where
  value : Int
  deriving DecidableEq, Repr, Inhabited

/-- The text of a counter. -/
def Counter.describe (c : Counter) : String :=
  "StepCounter(" ++ toString c.value ++ ")"

/-- A tape and the counter that its operations are counted on. -/
structure Reel where
  tape : Tape
  counter : Option (Handle Counter)
  deriving DecidableEq, Repr, Inhabited

/-- The reels of a machine, which are never the same one. -/
structure Mount where
  main : Handle Reel
  aux : Handle Reel
  main_ne_aux : main ≠ aux
  deriving DecidableEq, Repr

/-- A machine: its state, the number of its steps, its reels until it has surrendered them, its coin
and its counter. -/
structure Machine where
  control : Control
  ticks : Nat
  mount : Option Mount
  coin : Option (Handle Coin)
  counter : Option (Handle Counter)
  deriving DecidableEq, Repr, Inhabited

/-- All counters, coins, reels and machines. -/
structure Store where
  counters : Table Counter := {}
  coins : Table Coin := {}
  reels : Table Reel := {}
  machines : Table Machine := {}
  deriving DecidableEq, Repr

/-- What an operation answers: the store after it, what was reported, and a value or a fault. -/
structure Reply (α : Type) where
  store : Store
  trace : List Event := []
  result : Except Fault α

namespace Store

/-! ## Starting -/

/-- The coin that machines share which are given none of their own. -/
def commonCoin : Handle Coin := ⟨0⟩

/-- A store that holds the common coin only, with its generator. -/
def initial (common : Twister) : Store :=
  { coins := ({} : Table Coin).add (.seeded common) }

/-! ## Counters and coins -/

/-- Raise a counter, if there is one. -/
def count (σ : Store) (c : Option (Handle Counter)) (n : Nat) : Store :=
  match c with
  | none => σ
  | some h => { σ with counters := σ.counters.set h ⟨(σ.counters.get h).value + n⟩ }

/-- Set a counter back to zero. -/
def reset (σ : Store) (h : Handle Counter) : Store :=
  { σ with counters := σ.counters.set h ⟨0⟩ }

/-- Enter a counter, under the next handle. -/
def addCounter (σ : Store) (value : Int) : Store :=
  { σ with counters := σ.counters.add ⟨value⟩ }

/-- Enter a coin, under the next handle. -/
def addCoin (σ : Store) (c : Coin) : Store :=
  { σ with coins := σ.coins.add c }

/-- Replace a coin. -/
def setCoin (σ : Store) (h : Handle Coin) (c : Coin) : Store :=
  { σ with coins := σ.coins.set h c }

/-- Flip a coin. -/
def flip (σ : Store) (h : Handle Coin) : Reply Bool :=
  match (σ.coins.get h).flip with
  | .error f => { store := σ, result := .error f }
  | .ok (heads, coin) => { store := σ.setCoin h coin, result := .ok heads }

/-! ## Reels -/

/-- The tape on a reel. -/
def tape (σ : Store) (h : Handle Reel) : Tape :=
  (σ.reels.get h).tape

/-- The counter that the operations on a reel are counted on. -/
def counterOf (σ : Store) (h : Handle Reel) : Option (Handle Counter) :=
  (σ.reels.get h).counter

/-- Put another tape on a reel. -/
def setTape (σ : Store) (h : Handle Reel) (t : Tape) : Store :=
  { σ with reels := σ.reels.set h { σ.reels.get h with tape := t } }

/-- Enter a reel, under the next handle. -/
def addReel (σ : Store) (t : Tape) (counter : Option (Handle Counter)) : Store :=
  { σ with reels := σ.reels.add ⟨t, counter⟩ }

/-- Count the operations on a reel on another counter from now on. -/
def attach (σ : Store) (h : Handle Reel) (counter : Option (Handle Counter)) : Store :=
  { σ with reels := σ.reels.set h { σ.reels.get h with counter } }

/-- An operation of the head of a reel, which counts. -/
def operate (σ : Store) (h : Handle Reel) (f : Tape → Tape) : Store :=
  (σ.count (σ.counterOf h) 1).setTape h (f (σ.tape h))

/-- Read the cell under the head of a reel, which counts. -/
def read (σ : Store) (h : Handle Reel) : Cell × Store :=
  ((σ.tape h).focus, σ.operate h id)

/-- Enter a reel with an equal tape and the same counter, under the next handle. -/
def clone (σ : Store) (h : Handle Reel) : Store :=
  σ.addReel (σ.tape h) (σ.counterOf h)

end Store

end SubseqMachines
