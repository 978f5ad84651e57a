/-!
# Decimal digits and blanks

Integers are read with the decimal digits of every script. The digits of one script stand next to
each other in the order of their values, so the code point of its zero fixes the other nine. The
zeros are those of Unicode 14.

* `digitZeros_ordered`: the scripts' digits do not overlap;
* `digitValue?_ascii`: the ASCII digits have their usual values.
-/

namespace SubseqMachines.Text

/-- The code points of the digit zero of every script, in ascending order. -/
def digitZeros : List Nat :=
  [0x30, 0x660, 0x6f0, 0x7c0, 0x966, 0x9e6, 0xa66, 0xae6, 0xb66, 0xbe6, 0xc66, 0xce6, 0xd66,
   0xde6, 0xe50, 0xed0, 0xf20, 0x1040, 0x1090, 0x17e0, 0x1810, 0x1946, 0x19d0, 0x1a80, 0x1a90,
   0x1b50, 0x1bb0, 0x1c40, 0x1c50, 0xa620, 0xa8d0, 0xa900, 0xa9d0, 0xa9f0, 0xaa50, 0xabf0,
   0xff10, 0x104a0, 0x10d30, 0x11066, 0x110f0, 0x11136, 0x111d0, 0x112f0, 0x11450, 0x114d0,
   0x11650, 0x116c0, 0x11730, 0x118e0, 0x11950, 0x11c50, 0x11d50, 0x11da0, 0x16a60, 0x16ac0,
   0x16b50, 0x1d7ce, 0x1d7d8, 0x1d7e2, 0x1d7ec, 0x1d7f6, 0x1e140, 0x1e2f0, 0x1e950, 0x1fbf0]

/-- The value of a decimal digit of any script. -/
def digitValue? (c : Char) : Option Nat :=
  (digitZeros.find? fun z => decide (z ≤ c.toNat) && decide (c.toNat < z + 10)).map (c.toNat - ·)

/-- The characters that may surround an integer: the ASCII blanks from the tab to the carriage
return, the space, and the spaces and line ends beyond ASCII. -/
def isBlank (c : Char) : Bool :=
  let n := c.toNat
  (9 ≤ n && n ≤ 13) || n = 32 || n = 0x85 || n = 0xa0 || n = 0x1680 ||
    (0x2000 ≤ n && n ≤ 0x200a) || n = 0x2028 || n = 0x2029 || n = 0x202f || n = 0x205f ||
    n = 0x3000

/-! ## Laws -/

/-- The ten digits of one script end before those of the next one begin. -/
theorem digitZeros_ordered : digitZeros.Pairwise fun y z => y + 10 ≤ z := by
  decide +kernel

/-- The ASCII digits have their usual values, and no other ASCII character is a digit. -/
theorem digitValue?_ascii :
    ∀ n : Fin 128, digitValue? (Char.ofNat n) =
      if 48 ≤ n.val ∧ n.val < 58 then some (n.val - 48) else none := by
  decide +kernel

/-- Everything that core counts as whitespace is a blank. -/
theorem isBlank_of_isWhitespace {c : Char} (h : c.isWhitespace = true) : isBlank c = true := by
  simp only [Char.isWhitespace, Bool.or_eq_true, decide_eq_true_eq] at h
  rcases h with ((rfl | rfl) | rfl) | rfl <;> rfl

end SubseqMachines.Text
