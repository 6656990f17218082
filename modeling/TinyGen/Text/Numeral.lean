/-!
# Numerals

Texts that stand for a number: an optional minus sign, one or more decimal digits, and optionally a
point with one or more decimal digits after it. Nothing may precede or follow, not even a line
break.

The digits may belong to any script: a decimal digit is a character of general category Nd, as of
Unicode 16. These come in runs of ten, zero to nine, so the table lists the zeros.
-/

namespace TinyGen.Text

/-- The zero of each run of ten decimal digits. -/
def digitZeros : List Nat :=
  [0x0030, 0x0660, 0x06f0, 0x07c0, 0x0966, 0x09e6, 0x0a66, 0x0ae6, 0x0b66, 0x0be6,
   0x0c66, 0x0ce6, 0x0d66, 0x0de6, 0x0e50, 0x0ed0, 0x0f20, 0x1040, 0x1090, 0x17e0,
   0x1810, 0x1946, 0x19d0, 0x1a80, 0x1a90, 0x1b50, 0x1bb0, 0x1c40, 0x1c50, 0xa620,
   0xa8d0, 0xa900, 0xa9d0, 0xa9f0, 0xaa50, 0xabf0, 0xff10, 0x104a0, 0x10d30, 0x10d40,
   0x11066, 0x110f0, 0x11136, 0x111d0, 0x112f0, 0x11450, 0x114d0, 0x11650, 0x116c0, 0x116d0,
   0x116da, 0x11730, 0x118e0, 0x11950, 0x11bf0, 0x11c50, 0x11d50, 0x11da0, 0x11f50, 0x16130,
   0x16a60, 0x16ac0, 0x16b50, 0x16d70, 0x1ccf0, 0x1d7ce, 0x1d7d8, 0x1d7e2, 0x1d7ec, 0x1d7f6,
   0x1e140, 0x1e2f0, 0x1e4f0, 0x1e5f1, 0x1e950, 0x1fbf0]

/-- Whether `c` is a decimal digit of some script. -/
def isDecimalDigit (c : Char) : Bool :=
  digitZeros.any fun z => z ≤ c.toNat && c.toNat < z + 10

/-- One or more decimal digits and nothing else. -/
def isDigits (cs : List Char) : Bool :=
  !cs.isEmpty && cs.all isDecimalDigit

/-- What follows the digits before the point: nothing, or a point and digits. -/
def isFraction : List Char → Bool
  | [] => true
  | '.' :: cs => isDigits cs
  | _ => false

/-- A numeral without its sign. -/
def isUnsigned (cs : List Char) : Bool :=
  isDigits (cs.takeWhile isDecimalDigit) && isFraction (cs.dropWhile isDecimalDigit)

/-- Whether `text` stands for a number. -/
def isNumeral (text : String) : Bool :=
  match text.toList with
  | '-' :: cs => isUnsigned cs
  | cs => isUnsigned cs

end TinyGen.Text
