import TinyGen.Text.Quoted

/-!
# Defects

Why a text cannot be read: it is not JSON, it ends too early, or it is JSON of another shape than
the one asked for. Only the last kind is told in detail; `Mismatch.message` has the wording.
-/

namespace TinyGen.Json

/-- What stands where something else was expected. A real is held as its decimal text. -/
inductive Found where
  | null
  | boolean (value : Bool)
  | integer (value : Int)
  | real (text : String)
  | string (value : String)
  | sequence
  | map
  | unitVariant
  deriving DecidableEq, Repr

/-- A difference between the text and the shape asked for. -/
inductive Mismatch where
  | invalidType (found : Found) (expected : String)
  | invalidLength (length : Nat) (expected : String)
  | missingField (name : String)
  | duplicateField (name : String)
  | unknownVariant (name : String) (known : List String)
  deriving DecidableEq, Repr

/-- Reason for refusing a text. -/
inductive Defect where
  /-- The text is well formed up to a value of the wrong shape. -/
  | unfit (mismatch : Mismatch)
  /-- The text breaks the rules of JSON, or nests too deeply. -/
  | malformed
  /-- The text ends inside a value. -/
  | truncated
  deriving DecidableEq, Repr

/-- Name of what was found. -/
def Found.text : Found → String
  | .null => "null"
  | .boolean true => "boolean `true`"
  | .boolean false => "boolean `false`"
  | .integer value => "integer `" ++ toString value ++ "`"
  | .real text => "floating point `" ++ text ++ "`"
  | .string value => "string " ++ Text.quoted value
  | .sequence => "sequence"
  | .map => "map"
  | .unitVariant => "unit variant"

/-- A name between backquotes. -/
def backquoted (name : String) : String :=
  "`" ++ name ++ "`"

/-- The known names of a variant, in declaration order. -/
def Mismatch.choices : List String → String
  | [a] => backquoted a
  | [a, b] => backquoted a ++ " or " ++ backquoted b
  | names => "one of " ++ ", ".intercalate (names.map backquoted)

/-- Wording of a mismatch. -/
def Mismatch.message : Mismatch → String
  | .invalidType found expected => "invalid type: " ++ found.text ++ ", expected " ++ expected
  | .invalidLength length expected =>
    "invalid length " ++ toString length ++ ", expected " ++ expected
  | .missingField name => "missing field " ++ backquoted name
  | .duplicateField name => "duplicate field " ++ backquoted name
  | .unknownVariant name known =>
    "unknown variant " ++ backquoted name ++ ", expected " ++ choices known

/-- Wording of a defect. -/
def Defect.message : Defect → String
  | .unfit mismatch => mismatch.message
  | .malformed => "not a JSON text"
  | .truncated => "unexpected end of the text"

end TinyGen.Json
