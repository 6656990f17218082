import TinyGen.Json.Number

/-!
# JSON texts

The parts of a JSON text below the shape of a particular value: blanks, the fixed words, strings
with their escapes, and whole values that are skipped. Each function takes what remains of the text
and gives what remains after it, or the first defect met.

The loops take a `bound`, a list at least as long as the text. Every round consumes a character, so
a text never outlives its own bound.
-/

namespace TinyGen.Json

/-- White space between the parts of a text. -/
def isBlank (c : Char) : Bool :=
  c = ' ' || c = '\n' || c = '\t' || c = '\r'

/-- The text after leading white space. -/
def skipBlank (text : List Char) : List Char :=
  text.dropWhile isBlank

/-- The rest of a fixed word such as `null`. -/
def word : List Char → List Char → Except Defect (List Char)
  | [], text => .ok text
  | _ :: _, [] => .error .truncated
  | w :: ws, c :: text => if c = w then word ws text else .error .malformed

/-! ## Strings -/

/-- Value of a hexadecimal digit. -/
def hexValue? (c : Char) : Option Nat :=
  if '0' ≤ c ∧ c ≤ '9' then some (c.toNat - '0'.toNat)
  else if 'a' ≤ c ∧ c ≤ 'f' then some (c.toNat - 'a'.toNat + 10)
  else if 'A' ≤ c ∧ c ≤ 'F' then some (c.toNat - 'A'.toNat + 10)
  else none

/-- Four hexadecimal digits. A text with fewer than four bytes left ends too early. -/
def hexEscape (text : List Char) : Except Defect (Nat × List Char) :=
  match text with
  | a :: b :: c :: d :: rest =>
    match hexValue? a, hexValue? b, hexValue? c, hexValue? d with
    | some a, some b, some c, some d => .ok (((a * 16 + b) * 16 + c) * 16 + d, rest)
    | _, _, _, _ => .error .malformed
  | short => if 4 ≤ short.foldr (·.utf8Size + ·) 0 then .error .malformed else .error .truncated

/-- First half of a character beyond the sixteen-bit range. -/
def isHighSurrogate (n : Nat) : Bool :=
  0xD800 ≤ n && n ≤ 0xDBFF

/-- Second half of a character beyond the sixteen-bit range. -/
def isLowSurrogate (n : Nat) : Bool :=
  0xDC00 ≤ n && n ≤ 0xDFFF

/-- Character of a high and a low surrogate. -/
def joinSurrogates (high low : Nat) : Char :=
  Char.ofNat ((high - 0xD800) * 0x400 + (low - 0xDC00) + 0x10000)

/-- The escaped low surrogate that has to follow `high`. -/
def lowEscape (high : Nat) : List Char → Except Defect (Char × List Char)
  | [] => .error .truncated
  | ['\\'] => .error .truncated
  | '\\' :: 'u' :: text => do
    let (low, text) ← hexEscape text
    if isLowSurrogate low then return (joinSurrogates high low, text) else .error .malformed
  | _ => .error .malformed

/-- The character of a `\u` escape. Surrogates have to come in pairs. -/
def unicodeEscape (text : List Char) : Except Defect (Char × List Char) := do
  let (n, text) ← hexEscape text
  if isLowSurrogate n then .error .malformed
  else if isHighSurrogate n then lowEscape n text
  else return (Char.ofNat n, text)

/-- The character that a backslash and a letter stand for. -/
def shortEscape? (c : Char) : Option Char :=
  if c = '"' then some '"'
  else if c = '\\' then some '\\'
  else if c = '/' then some '/'
  else if c = 'b' then some '\x08'
  else if c = 'f' then some '\x0c'
  else if c = 'n' then some '\n'
  else if c = 'r' then some '\r'
  else if c = 't' then some '\t'
  else none

/-- The character of an escape, after its backslash. -/
def escape : List Char → Except Defect (Char × List Char)
  | [] => .error .truncated
  | c :: text =>
    if c = 'u' then unicodeEscape text
    else match shortEscape? c with
      | some e => .ok (e, text)
      | none => .error .malformed

/-- Skips an escape, after its backslash. Any four hexadecimal digits will do. -/
def skipEscape : List Char → Except Defect (List Char)
  | [] => .error .truncated
  | c :: text =>
    if c = 'u' then (hexEscape text).map Prod.snd
    else match shortEscape? c with
      | some _ => .ok text
      | none => .error .malformed

/-- Characters that a string holds only as escapes. -/
def isControl (c : Char) : Bool :=
  c.toNat < 0x20

/-- The rest of a string, after its opening quote; `read` holds the characters so far, the last
one first. -/
def stringFrom : (bound : List Char) → (read : List Char) → List Char →
    Except Defect (String × List Char)
  | _ :: bound, read, c :: text =>
    if c = '"' then .ok (String.ofList read.reverse, text)
    else if c = '\\' then
      match escape text with
      | .error d => .error d
      | .ok (e, text) => stringFrom bound (e :: read) text
    else if isControl c then .error .malformed
    else stringFrom bound (c :: read) text
  | _, _, _ => .error .truncated

/-- A string, after its opening quote. -/
def string (text : List Char) : Except Defect (String × List Char) :=
  stringFrom text [] text

/-- Skips the rest of a string. -/
def skipStringFrom : (bound : List Char) → List Char → Except Defect (List Char)
  | _ :: bound, c :: text =>
    if c = '"' then .ok text
    else if c = '\\' then
      match skipEscape text with
      | .error d => .error d
      | .ok text => skipStringFrom bound text
    else if isControl c then .error .malformed
    else skipStringFrom bound text
  | _, _ => .error .truncated

/-- Skips a string, after its opening quote. -/
def skipString (text : List Char) : Except Defect (List Char) :=
  skipStringFrom text text

/-- The colon between a key and its value. -/
def colon (text : List Char) : Except Defect (List Char) :=
  match skipBlank text with
  | [] => .error .truncated
  | c :: text => if c = ':' then .ok text else .error .malformed

/-! ## Skipped values

A skipped value may nest without limit, so the open brackets are kept in a list. -/

/-- Bracket around the items of an array or the members of an object. -/
inductive Bracket where
  | array
  | object
  deriving DecidableEq, Repr

/-- Skips the key and the colon of a member. -/
def skipKey (text : List Char) : Except Defect (List Char) :=
  match skipBlank text with
  | [] => .error .truncated
  | c :: text => if c = '"' then (skipString text).bind colon else .error .malformed

/-- Skips a value without brackets that starts with `c`. -/
def skipScalar (c : Char) (text : List Char) : Except Defect (List Char) :=
  if c = 'n' then word ['u', 'l', 'l'] text
  else if c = 't' then word ['r', 'u', 'e'] text
  else if c = 'f' then word ['a', 'l', 's', 'e'] text
  else if c = '-' then (scanNumber .malformed true text).map Prod.snd
  else if c.isDigit then (scanNumber .malformed false (c :: text)).map Prod.snd
  else if c = '"' then skipString text
  else .error .malformed

/-- What is skipped next. -/
inductive Skip where
  /-- A value. -/
  | value
  /-- What follows a value inside the open brackets. -/
  | after
  deriving DecidableEq, Repr

/-- Skips the rest of a value inside the brackets that are open, the innermost first. -/
def skipFrom : (bound : List Char) → Skip → (brackets : List Bracket) → List Char →
    Except Defect (List Char)
  | _, .after, [], text => .ok text
  | _ :: bound, .value, brackets, text =>
    match skipBlank text with
    | [] => .error .truncated
    | c :: text =>
      if c = '[' then
        match skipBlank text with
        | ']' :: text => skipFrom bound .after brackets text
        | text => skipFrom bound .value (.array :: brackets) text
      else if c = '\x7b' then
        match skipBlank text with
        | '\x7d' :: text => skipFrom bound .after brackets text
        | text =>
          match skipKey text with
          | .error d => .error d
          | .ok text => skipFrom bound .value (.object :: brackets) text
      else
        match skipScalar c text with
        | .error d => .error d
        | .ok text => skipFrom bound .after brackets text
  | _ :: bound, .after, .array :: brackets, text =>
    match skipBlank text with
    | [] => .error .truncated
    | c :: text =>
      if c = ',' then skipFrom bound .value (.array :: brackets) text
      else if c = ']' then skipFrom bound .after brackets text
      else .error .malformed
  | _ :: bound, .after, .object :: brackets, text =>
    match skipBlank text with
    | [] => .error .truncated
    | c :: text =>
      if c = ',' then
        match skipKey text with
        | .error d => .error d
        | .ok text => skipFrom bound .value (.object :: brackets) text
      else if c = '\x7d' then skipFrom bound .after brackets text
      else .error .malformed
  | [], _, _, _ => .error .truncated

/-- Skips one value. -/
def skipValue (text : List Char) : Except Defect (List Char) :=
  skipFrom text .value [] text

end TinyGen.Json
