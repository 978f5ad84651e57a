import SubseqMachines.Text.Printable

/-!
# Quoted text

Messages show text between quotes, written so that each text has one quoted form and the form holds
printable characters only. The quote is `'`, or `"` for a text that holds `'` and no `"`. Within the
quotes a backslash and the quote in use are escaped by a backslash; a tab, a line feed and a
carriage return are `\t`, `\n` and `\r`; any other unprintable character is written by its code
point, in as few of two, four or eight hexadecimal digits as hold it.

* `Quoted.quoteFor` chooses the quote, `Quoted.escape` writes one character;
* `quoted` is the whole form;
* `Quoted.escape_eq_singleton`: a character written as itself is printable and needs no escape.
-/

namespace SubseqMachines.Text

namespace Quoted

/-- The quote for a text: the single one, unless the text holds that and not the double one. -/
def quoteFor (text : List Char) : Char :=
  if text.contains '\'' && !text.contains '"' then '"' else '\''

/-- A number in lowercase hexadecimal digits, filled up with zeros on the left. -/
def hex (width n : Nat) : List Char :=
  let digits := Nat.toDigits 16 n
  List.replicate (width - digits.length) '0' ++ digits

/-- A code point as a backslash, a letter that tells the number of digits, and the digits. -/
def codePoint (n : Nat) : List Char :=
  if n < 0x100 then '\\' :: 'x' :: hex 2 n
  else if n < 0x10000 then '\\' :: 'u' :: hex 4 n
  else '\\' :: 'U' :: hex 8 n

/-- One character as it stands between two of the given quotes. -/
def escape (quote c : Char) : List Char :=
  if c = quote ∨ c = '\\' then ['\\', c]
  else if c = '\t' then ['\\', 't']
  else if c = '\n' then ['\\', 'n']
  else if c = '\r' then ['\\', 'r']
  else if isPrintable c then [c]
  else codePoint c.toNat

/-- A character that is written as itself is none that needs an escape. -/
theorem escape_eq_singleton {quote c d : Char} (h : escape quote c = [d]) :
    d = c ∧ c ≠ quote ∧ c ≠ '\\' ∧ isPrintable c = true := by
  unfold escape codePoint at h
  grind

end Quoted

/-- A text between quotes. -/
def quoted (text : String) : String :=
  let quote := Quoted.quoteFor text.toList
  String.ofList (quote :: text.toList.flatMap (Quoted.escape quote) ++ [quote])

end SubseqMachines.Text
