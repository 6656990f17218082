/-!
# Shortest decimals

The shortest decimal that reads back as a given binary floating point number. A number `m · 2 ^ q`
is what every real of an interval around it rounds to; among the decimals of that interval the one
with the fewest digits is taken, of two equally short ones the nearer, and of two equally near ones
the even one.

All comparisons are made on natural numbers: the ends of the interval are multiples of
`2 ^ (q - 2)`, and both sides are multiplied until no denominator is left.
-/

namespace TinyGen

/-- Decimal `digits · 10 ^ exponent`. -/
structure Decimal where
  digits : Nat
  exponent : Int
  deriving DecidableEq, Repr

namespace Decimal

/-- Positive number `m · 2 ^ q`. It is `narrowBelow` when the next smaller number is only half as
far away as the next larger one. -/
structure Binary where
  m : Nat
  q : Int
  narrowBelow : Bool

/-- `n · 2 ^ q` as a fraction. -/
def twoPow (n : Nat) (q : Int) : Nat × Nat :=
  (n * Nat.pow 2 q.toNat, Nat.pow 2 (-q).toNat)

/-- `a ≤ b` for fractions with positive denominators. -/
def fracLe (a b : Nat × Nat) : Bool :=
  a.1 * b.2 ≤ b.1 * a.2

/-- `d` as a fraction. -/
def toFrac (d : Decimal) : Nat × Nat :=
  (d.digits * Nat.pow 10 d.exponent.toNat, Nat.pow 10 (-d.exponent).toNat)

/-- Whether every reading of `d` rounds to `b`: it lies strictly inside the interval of `b`, or on
one of its ends when `m` is even. -/
def Binary.admits (b : Binary) (d : Decimal) : Bool :=
  let low := twoPow (4 * b.m - if b.narrowBelow then 1 else 2) (b.q - 2)
  let high := twoPow (4 * b.m + 2) (b.q - 2)
  let x := d.toFrac
  if b.m % 2 = 0 then fracLe low x && fracLe x high
  else !fracLe x low && !fracLe high x

/-- The two multiples of `10 ^ e` around `b`, the nearer one first. Halfway between them the even one
comes first. -/
def Binary.neighbours (b : Binary) (e : Int) : Decimal × Decimal :=
  let (num, den) := twoPow b.m b.q
  -- `b / 10 ^ e` as a fraction
  let num := num * Nat.pow 10 (-e).toNat
  let den := den * Nat.pow 10 e.toNat
  let below : Decimal := ⟨num / den, e⟩
  let above : Decimal := ⟨num / den + 1, e⟩
  let twice := 2 * (num % den)
  if twice < den ∨ twice = den ∧ below.digits % 2 = 0 then (below, above) else (above, below)

/-- Exponent of the leading decimal digit of `b`, searched downwards from `top`. -/
def Binary.leading (b : Binary) : (top : Nat) → (shift : Int) → Int
  | 0, shift => shift
  | top + 1, shift =>
    let e : Int := (top + 1 : Nat) + shift
    if fracLe (toFrac ⟨1, e⟩) (twoPow b.m b.q) then e else b.leading top shift

/-- First hit on the grids `10 ^ (lead - n + 1)` for growing digit counts `n`. -/
def Binary.search (b : Binary) (lead : Int) : (tries : Nat) → (n : Nat) → Decimal
  | 0, n => (b.neighbours (lead - n + 1)).1
  | tries + 1, n =>
    let (near, far) := b.neighbours (lead - n + 1)
    if b.admits near then near
    else if b.admits far then far
    else b.search lead tries (n + 1)

/-- Shortest decimal that reads back as `b`. Doubles have a leading exponent between -324 and 308
and never need more than seventeen digits. A hit just above all digits of its grid, a power of ten,
moves to the next exponent. -/
def Binary.shortest (b : Binary) : Decimal :=
  let d := b.search (b.leading 634 (-325)) 17 1
  if d.digits % 10 = 0 then ⟨d.digits / 10, d.exponent + 1⟩ else d

/-- How a decimal is written out. -/
structure Format where
  /-- Least exponent of the leading digit that is still written positionally. -/
  least : Int
  /-- Greatest exponent of the leading digit that is still written positionally. -/
  greatest : Int
  /-- Mark before a positive exponent. -/
  positiveMark : String
  /-- Mark before the digits of a negative exponent. -/
  negativeMark : String

/-- `digits · 10 ^ exponent` in positional notation, always with a point. -/
def positional (digits : List Char) (exponent : Int) : String :=
  let whole := digits.length + exponent
  if 0 ≤ exponent then
    String.ofList (digits ++ List.replicate exponent.toNat '0' ++ ['.', '0'])
  else if 0 < whole then
    String.ofList (digits.take whole.toNat ++ '.' :: digits.drop whole.toNat)
  else
    String.ofList ('0' :: '.' :: List.replicate (-whole).toNat '0' ++ digits)

/-- `digits · 10 ^ exponent` with one digit before the point and an exponent after the rest. -/
def Format.scientific (f : Format) (digits : List Char) (exponent : Int) : String :=
  let lead := digits.length + exponent - 1
  let mantissa := match digits with
    | d :: r :: rest => d :: '.' :: r :: rest
    | short => short
  let mark := if lead < 0 then f.negativeMark else f.positiveMark
  String.ofList mantissa ++ mark ++ toString lead.natAbs

/-- Text of a decimal. -/
def Format.write (f : Format) (d : Decimal) : String :=
  let digits := Nat.toDigits 10 d.digits
  let lead := digits.length + d.exponent - 1
  if f.least ≤ lead ∧ lead ≤ f.greatest then positional digits d.exponent
  else f.scientific digits d.exponent

/-- Positional from `0.00001` up to sixteen digits before the point. -/
def floating : Format where
  least := -5
  greatest := 15
  positiveMark := "e+"
  negativeMark := "e-"

/-- The double with these bits, sign apart: its fraction and exponent fields. -/
def Binary.ofFields (exponent fraction : Nat) : Binary :=
  if exponent = 0 then ⟨fraction, -1074, false⟩
  else ⟨fraction + Nat.pow 2 52, (exponent : Int) - 1075, fraction = 0 && exponent ≠ 1⟩

/-- Text of a finite double. -/
def writeFloat (x : Float) : String :=
  let bits := x.toBits.toNat
  let sign := if bits / Nat.pow 2 63 = 1 then "-" else ""
  let b := Binary.ofFields (bits / Nat.pow 2 52 % Nat.pow 2 11) (bits % Nat.pow 2 52)
  if b.m = 0 then sign ++ "0.0" else sign ++ floating.write b.shortest

end Decimal

end TinyGen
