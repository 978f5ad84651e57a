/-!
# The Mersenne twister

The generator MT19937: a state of 624 words of 32 bits, of which one is renewed for each output. A
renewed word mixes the top bit of the old word, the other bits of its successor and the word 397
places on; the output is the new word, tempered.

A state is made from a seed, an integer of any size. The seed's magnitude is cut into limbs of 32
bits, the least significant first, and the limbs are stirred into a fixed state: first with the
limbs added, as many times as the longer of the two has words, and then once round with the places
taken off.

* `Twister.ofSeed` makes a state, `Twister.next` draws one output;
* `Twister.ofSeed_neg`: a seed and its negative make the same state.
-/

namespace SubseqMachines

/-- A state of the generator: the words, and the place of the word to renew next. -/
structure Twister where
  words : Vector UInt32 624
  place : Fin 624
  deriving DecidableEq, Repr

namespace Twister

/-! ## Drawing -/

/-- The new word from the old one, its successor and the word 397 places on. -/
def renew (old successor distant : UInt32) : UInt32 :=
  let mixed := (old &&& 0x80000000) ||| (successor &&& 0x7fffffff)
  let twisted := distant ^^^ (mixed >>> 1)
  if mixed &&& 1 = 0 then twisted else twisted ^^^ 0x9908b0df

/-- The output for a renewed word. -/
def temper (word : UInt32) : UInt32 :=
  let y := word ^^^ (word >>> 11)
  let y := y ^^^ ((y <<< 7) &&& 0x9d2c5680)
  let y := y ^^^ ((y <<< 15) &&& 0xefc60000)
  y ^^^ (y >>> 18)

/-- One output and the state after it. -/
def next (t : Twister) : UInt32 × Twister :=
  -- places wrap around at the end of the state
  let word := renew t.words[t.place] t.words[t.place + 1] t.words[t.place + 397]
  (temper word, ⟨t.words.set t.place word, t.place + 1⟩)

/-! ## Seeding -/

/-- A number's limbs of 32 bits, the least significant first. -/
def limbs (n : Nat) : List UInt32 :=
  if n < UInt32.size then [n.toUInt32] else n.toUInt32 :: limbs (n / UInt32.size)
termination_by n
decreasing_by
  have hpos : 0 < n := Nat.lt_of_lt_of_le (by decide) (Nat.le_of_not_lt ‹¬n < UInt32.size›)
  exact Nat.div_lt_self hpos (by decide)

theorem limbs_ne_nil (n : Nat) : limbs n ≠ [] := by
  unfold limbs; split <;> simp

/-- What a word passes on to the next one while a state is made. -/
def carry (word : UInt32) : UInt32 :=
  word ^^^ (word >>> 30)

/-- The fixed state that limbs are stirred into: each word is a multiple of what the one before it
passes on, plus its place. -/
def base : Vector UInt32 624 :=
  (List.finRange 624).foldl
    (fun words (i : Fin 624) =>
      if i = 0 then words
      else words.set i (1812433253 * carry words[i - 1] + i.val.toUInt32))
    (Vector.replicate 624 19650218)

/-- The place after a place in a round that goes from the second word to the last and then again to
the second. When a round closes, the first word takes over the last one. -/
def advance (words : Vector UInt32 624) (place : Fin 624) : Vector UInt32 624 × Fin 624 :=
  if place = 623 then (words.set 0 words[623], 1) else (words, place + 1)

/-- The first stirring: each word in turn takes in one limb and the limb's number. -/
def stirLimbs (limbs : List (UInt32 × UInt32)) (s : Vector UInt32 624 × Fin 624) :
    Vector UInt32 624 × Fin 624 :=
  limbs.foldl
    (fun (words, i) (limb, number) =>
      let word := (words[i] ^^^ (carry words[i - 1] * 1664525)) + limb + number
      advance (words.set i word) i)
    s

/-- The second stirring: each word in turn has its place taken off. -/
def stirPlaces (s : Vector UInt32 624 × Fin 624) : Vector UInt32 624 × Fin 624 :=
  (List.range 623).foldl
    (fun (words, i) _ =>
      let word := (words[i] ^^^ (carry words[i - 1] * 1566083941)) - i.val.toUInt32
      advance (words.set i word) i)
    s

/-- The limbs with their numbers, repeated from the start until there are at least as many as the
state has words. -/
def schedule (limbs : List UInt32) : List (UInt32 × UInt32) :=
  let numbered := limbs.zip ((List.range limbs.length).map Nat.toUInt32)
  let rounds := List.replicate (624 / limbs.length + 1) numbered
  rounds.flatten.take (max 624 limbs.length)

/-- The state that a seed makes. -/
def ofSeed (seed : Int) : Twister :=
  let stirred := stirPlaces (stirLimbs (schedule (limbs seed.natAbs)) (base, 1))
  ⟨stirred.1.set 0 0x80000000, 0⟩

/-- A seed and its negative make the same state. -/
theorem ofSeed_neg (seed : Int) : ofSeed (-seed) = ofSeed seed := by
  simp [ofSeed]

end Twister

instance : Inhabited Twister := ⟨Twister.ofSeed 0⟩

end SubseqMachines
