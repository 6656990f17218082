import TinyGen.Decimal.Shortest
import TinyGen.Json.Defect

/-!
# Numbers

Numbers of JSON texts. A parse tree holds none, so a number is either part of a value that is
skipped, and then only its spelling matters, or it stands where something else was expected and is
named in the message.

A number named in a message is an integer as long as it fits 64 bits; any other number is the
double that the first digits fitting 64 bits give, scaled by the power of ten that remains.
-/

namespace TinyGen.Json

/-- A number as it is spelled. -/
structure Number where
  negative : Bool
  whole : List Char
  fraction : List Char
  exponent : Option (Bool × List Char)
  deriving DecidableEq, Repr

/-- The digits at the start of a text, and what follows them. -/
def spanDigits (text : List Char) : List Char × List Char :=
  (text.takeWhile Char.isDigit, text.dropWhile Char.isDigit)

/-- Digits before the point. A zero has no digit after it. `atEnd` tells how a text that ends too
early is reported. -/
def scanWhole (atEnd : Defect) : List Char → Except Defect (List Char × List Char)
  | [] => .error atEnd
  | c :: rest =>
    if c = '0' then
      match rest with
      | d :: _ => if d.isDigit then .error .malformed else .ok ([c], rest)
      | [] => .ok ([c], [])
    else if c.isDigit then .ok (spanDigits (c :: rest))
    else .error .malformed

/-- One or more digits. -/
def scanDigits (atEnd : Defect) (text : List Char) : Except Defect (List Char × List Char) :=
  match text with
  | [] => .error atEnd
  | c :: _ => if c.isDigit then .ok (spanDigits text) else .error .malformed

/-- The point and the digits after it, if there is a point. -/
def scanFraction (atEnd : Defect) : List Char → Except Defect (List Char × List Char)
  | '.' :: rest => scanDigits atEnd rest
  | text => .ok ([], text)

/-- The exponent, if there is one: its sign and its digits. -/
def scanExponent (atEnd : Defect) (text : List Char) :
    Except Defect (Option (Bool × List Char) × List Char) :=
  match text with
  | c :: rest =>
    if c = 'e' ∨ c = 'E' then
      let (negative, rest) := match rest with
        | '-' :: rest => (true, rest)
        | '+' :: rest => (false, rest)
        | rest => (false, rest)
      match scanDigits atEnd rest with
      | .error d => .error d
      | .ok (digits, rest) => .ok (some (negative, digits), rest)
    else .ok (none, text)
  | [] => .ok (none, [])

/-- A number after its sign. -/
def scanNumber (atEnd : Defect) (negative : Bool) (text : List Char) :
    Except Defect (Number × List Char) := do
  let (whole, text) ← scanWhole atEnd text
  let (fraction, text) ← scanFraction atEnd text
  let (exponent, text) ← scanExponent atEnd text
  return (⟨negative, whole, fraction, exponent⟩, text)

/-- Value of an ASCII digit. -/
def digitValue (c : Char) : Nat :=
  c.toNat - '0'.toNat

/-- Value of a list of ASCII digits. -/
def digitsValue (digits : List Char) : Nat :=
  digits.foldl (fun n c => 10 * n + digitValue c) 0

/-- Appends digits to `n` as long as the result fits 64 bits; also gives the digits left over. -/
def takeFitting (n : Nat) : List Char → Nat × List Char
  | [] => (n, [])
  | c :: rest =>
    let next := 10 * n + digitValue c
    if next < 2 ^ 64 then takeFitting next rest else (n, c :: rest)

/-- `x` divided by `10 ^ e`, in steps that stay within the powers of ten a double can hold. -/
def shrink (x : Float) (e : Nat) : Float :=
  if e ≤ 308 then x / Float.ofScientific 1 false e
  else if x == 0.0 then x
  else shrink (x / Float.ofScientific 1 false 308) (e - 308)
termination_by e

/-- `x` times `10 ^ e`, or nothing when it is too large for a double. -/
def scale (x : Float) : (e : Int) → Option Float
  | .ofNat e =>
    if e ≤ 308 then
      let y := x * Float.ofScientific 1 false e
      if y.isInf then none else some y
    else if x == 0.0 then some x
    else none
  | .negSucc e => some (shrink x (e + 1))

/-- What a number is called in a message; nothing when it is too large for a double. -/
def Number.found? (n : Number) : Option Found :=
  let (significand, dropped) := takeFitting 0 n.whole
  if n.fraction.isEmpty && n.exponent.isNone && dropped.isEmpty
      && (!n.negative || (0 < significand && significand ≤ Nat.pow 2 63)) then
    some (.integer (if n.negative then -(significand : Int) else significand))
  else
    let (mantissa, unread) := takeFitting significand n.fraction
    let point : Int := dropped.length - (n.fraction.length - unread.length : Nat)
    let power : Int := match n.exponent with
      | none => 0
      | some (true, digits) => -(digitsValue digits : Int)
      | some (false, digits) => digitsValue digits
    (scale (Float.ofNat mantissa) (point + power)).map fun x =>
      .real (Decimal.writeFloat (if n.negative then -x else x))

end TinyGen.Json
