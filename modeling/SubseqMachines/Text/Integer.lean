import SubseqMachines.Text.Digit
import SubseqMachines.Text.Pieces

/-!
# Integers in text

An integer is written as an optional sign and groups of decimal digits of any script, with one
underscore between two groups and none elsewhere. Blanks around it do not count. A number of more
than 4300 digits is refused, leading zeros included.

* `readNat?` reads the digit groups, `readInt?` the whole;
* `readInt?_eq_none_of_bare_sign`: a sign alone is no integer.
-/

namespace SubseqMachines.Text

/-- The most digits that an integer may have. -/
def maxDigits : Nat := 4300

/-- The number that a sequence of digits writes, the most significant first. -/
def valueOf (digits : List Nat) : Nat :=
  digits.foldl (fun n d => 10 * n + d) 0

/-- The values of the digits of one group, which is not empty. -/
def readGroup? (group : List Char) : Option (List Nat) :=
  if group.isEmpty then none else group.mapM digitValue?

/-- A natural number in groups of digits with single underscores between them. -/
def readNat? (text : List Char) : Option Nat := do
  let (first, later) := pieces '_' text
  let digits := (← (first :: later).mapM readGroup?).flatten
  if digits.length ≤ maxDigits then some (valueOf digits) else none

/-- A text without the blanks at either end. -/
def trim (text : List Char) : List Char :=
  ((text.dropWhile isBlank).reverse.dropWhile isBlank).reverse

/-- An integer with an optional sign, and blanks around it. -/
def readInt? (text : String) : Option Int :=
  match trim text.toList with
  | '+' :: digits => (readNat? digits).map Int.ofNat
  | '-' :: digits => (readNat? digits).map fun n => -Int.ofNat n
  | digits => (readNat? digits).map Int.ofNat

/-! ## Laws -/

@[simp] theorem readNat?_nil : readNat? [] = none := rfl

/-- A sign alone is no integer. -/
theorem readInt?_eq_none_of_bare_sign : readInt? "-" = none ∧ readInt? "+" = none := by
  decide +kernel

end SubseqMachines.Text
