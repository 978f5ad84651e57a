/-!
# Symbols

The machines work with words over two letters and with two kinds of tape: a main tape, which holds
blocks of letters closed by `#`, and an aux tape, which holds one word. A letter on the main tape
and the same letter on the aux tape are different symbols, although both are printed alike, so a
tape of one kind that carries a symbol of the other kind can be told from a sound one.

* `Letter` is the common two-letter alphabet;
* `Cell` is what a tape cell holds: a blank, the `#`, or a letter of either kind;
* `Cell.char` is the printed form, `Cell.name` the form used in messages.
-/

namespace SubseqMachines

/-! ## Letters -/

/-- The two letters that words and blocks are made of. -/
inductive Letter where
  | a
  | b
  deriving DecidableEq, Repr

namespace Letter

/-- The character that spells a letter. -/
def char : Letter → Char
  | a => 'a'
  | b => 'b'

/-- The letter that a character spells, if it spells one. -/
def ofChar? (c : Char) : Option Letter :=
  if c = 'a' then some a else if c = 'b' then some b else none

/-- The letter a coin flip writes: heads writes `a`. -/
def ofFlip (heads : Bool) : Letter :=
  if heads then a else b

/-- The name of a letter in messages. -/
def name : Letter → String
  | a => "A"
  | b => "B"

/-- A word spelled out. -/
def spell (word : List Letter) : String :=
  String.ofList (word.map char)

theorem ofChar?_eq_some_iff {c : Char} {l : Letter} : ofChar? c = some l ↔ c = l.char := by
  cases l <;> grind [ofChar?, char]

@[simp] theorem ofChar?_char (l : Letter) : ofChar? l.char = some l :=
  ofChar?_eq_some_iff.mpr rfl

theorem char_injective {k l : Letter} (h : k.char = l.char) : k = l := by
  cases k <;> cases l <;> simp_all [char]

end Letter

/-! ## Cells -/

/-- What one cell of a tape holds. -/
inductive Cell where
  | blank
  | hash
  | main (l : Letter)
  | aux (l : Letter)
  deriving DecidableEq, Repr, Inhabited

namespace Cell

/-- The printed form of a cell. It does not tell the two kinds of letter apart. -/
def char : Cell → Char
  | blank => '_'
  | hash => '#'
  | main l => l.char
  | aux l => l.char

/-- The unambiguous form of a cell, as messages show it. -/
def name : Cell → String
  | blank => "EMPTY"
  | hash => "MainSymbol.HASH"
  | main l => "MainSymbol." ++ l.name
  | aux l => "AuxSymbol." ++ l.name

/-- A letter of the main tape. -/
def isMainLetter : Cell → Bool
  | main _ => true
  | _ => false

/-- A letter of the aux tape. -/
def isAuxLetter : Cell → Bool
  | aux _ => true
  | _ => false

/-- The letters of the main tape. -/
def mainLetters : List Cell := [main .a, main .b]

/-- The letters of the aux tape. -/
def auxLetters : List Cell := [aux .a, aux .b]

/-- A cell that closes a block: `#`, or a blank after the last block. -/
def isBlockEnd : Cell → Bool
  | hash => true
  | blank => true
  | _ => false

/-- The main-tape symbol that a character spells. -/
def mainOfChar? (c : Char) : Option Cell :=
  if c = '#' then some hash else (Letter.ofChar? c).map main

/-- The aux-tape symbol that a character spells. -/
def auxOfChar? (c : Char) : Option Cell :=
  (Letter.ofChar? c).map aux

@[simp] theorem isMainLetter_main (l : Letter) : (main l).isMainLetter = true := rfl

@[simp] theorem isAuxLetter_aux (l : Letter) : (aux l).isAuxLetter = true := rfl

@[simp] theorem contains_mainLetters : mainLetters.contains = isMainLetter := by
  funext c
  rcases c with _ | _ | ⟨_ | _⟩ | ⟨_ | _⟩ <;> rfl

@[simp] theorem contains_auxLetters : auxLetters.contains = isAuxLetter := by
  funext c
  rcases c with _ | _ | ⟨_ | _⟩ | ⟨_ | _⟩ <;> rfl

theorem isMainLetter_iff {c : Cell} : c.isMainLetter = true ↔ ∃ l, c = main l := by
  cases c <;> simp [isMainLetter]

theorem isAuxLetter_iff {c : Cell} : c.isAuxLetter = true ↔ ∃ l, c = aux l := by
  cases c <;> simp [isAuxLetter]

end Cell

end SubseqMachines
