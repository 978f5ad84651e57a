import SubseqMachines.Text.Pieces

/-!
# Subsequences

What the machines compute, computed directly. A word is a subsequence of a block when its characters
can be read off the block from left to right, with gaps allowed. It is read off greedily: each
character is taken at its first place after the one before it.

* `readOff?` reads a word off a block and tells what is left of the block, `matched` tells how much
  of the word can be read;
* `isSubsequence` and `commonSubsequence` answer for texts;
* `matcherSteps` is the number of head operations of a matcher on blocks and words of one letter;
* `readOff?_isSome_iff`: the greedy reading finds every subsequence.
-/

namespace SubseqMachines

variable {α : Type} [DecidableEq α]

/-! ## Greedy reading -/

/-- What is left of a block after the first place of a symbol. -/
def after? (x : α) : List α → Option (List α)
  | [] => none
  | y :: block => if y = x then some block else after? x block

/-- What is left of a block after a word has been read off it. -/
def readOff? : List α → List α → Option (List α)
  | [], block => some block
  | x :: word, block => (after? x block).bind (readOff? word)

/-- How many symbols of a word can be read off a block, from the first one on. -/
def matched : List α → List α → Nat
  | [], _ => 0
  | x :: word, block => ((after? x block).map fun rest => matched word rest + 1).getD 0

/-! ## Answers for texts -/

/-- Whether a word can be read off a block from left to right, with gaps allowed. -/
def isSubsequence (block word : String) : Bool :=
  (readOff? word.toList block.toList).isSome

/-- What a trial has to answer once its witness is drawn: whether the witness is as long as the
first block of the text and a subsequence of each later one. Blocks are separated by `#`. -/
def commonSubsequence (text witness : String) : Bool :=
  let (first, later) := Text.pieces '#' text.toList
  first.length = witness.toList.length &&
    later.all fun block => (readOff? witness.toList block).isSome

/-- The number of head operations of a matcher on a block of `n` times the same letter and a word of
`m` times that letter. -/
def matcherSteps (n m : Int) : Int :=
  if n ≤ m then n * 6 + 6 else n * 2 + m * 4 + 6

/-! ## Laws -/

theorem sublist_cons_iff_after? {x : α} {word block : List α} :
    (x :: word).Sublist block ↔ ∃ rest, after? x block = some rest ∧ word.Sublist rest := by
  induction block with
  | nil => simp [after?]
  | cons y block ih =>
    by_cases h : y = x
    · subst h
      simp [after?]
    · simp [List.sublist_cons_iff, ih, after?, h, Ne.symm h]

/-- The greedy reading finds every subsequence. -/
theorem readOff?_isSome_iff {word block : List α} :
    (readOff? word block).isSome = true ↔ word.Sublist block := by
  induction word generalizing block with
  | nil => simp [readOff?]
  | cons x word ih =>
    rw [sublist_cons_iff_after?, readOff?]
    cases after? x block <;> simp [ih]

end SubseqMachines
