/-!
# Types

The three types of the Little language. Variables and parameters are declared `INT` or `FLOAT`;
`STRING` belongs to string declarations, which carry their text. A constant has no declared type:
`Ty.ofLiteral` reads one off its spelling.
-/

namespace TinyGen

/-- Type that a variable or parameter declaration can give. -/
inductive NumTy where
  | int
  | float
  deriving DecidableEq, Repr

/-- Type of a declared name, a constant or a computed value. -/
inductive Ty where
  | int
  | float
  | string
  deriving DecidableEq, Repr

namespace NumTy

/-- The type as a type of any name. -/
def toTy : NumTy → Ty
  | .int => .int
  | .float => .float

end NumTy

namespace Ty

/-- Name in reports and statement trees. -/
def name : Ty → String
  | .int => "INT"
  | .float => "FLOAT"
  | .string => "STRING"

/-- Letter that ends a typed opcode of the three-address code. -/
def suffix : Ty → String
  | .int => "I"
  | .float => "F"
  | .string => "S"

/-- The type as a numeric type, unless it is `STRING`. -/
def toNum? : Ty → Option NumTy
  | .int => some .int
  | .float => some .float
  | .string => none

/-- A constant is a `FLOAT` when its text has a decimal point, and an `INT` otherwise. -/
def ofLiteral (text : String) : Ty :=
  if '.' ∈ text.toList then .float else .int

theorem ofLiteral_ne_string (text : String) : ofLiteral text ≠ .string := by
  rw [ofLiteral]
  split <;> decide

end Ty

end TinyGen
