import TinyGen.Json.Defect
import TinyGen.ScopeTable

/-!
# Errors and misuse

`Error` has the causes for which a compilation is refused, each with its wording. `Misuse` is
another matter: it says that events or instructions were handed over in an order or of a kind that
no parse tree gives rise to.
-/

namespace TinyGen

/-- Why a file or a stream cannot be read or written. -/
inductive AccessFault where
  | notFound
  | isDirectory
  | notDirectory
  | nameTooLong
  | nulInPath
  | notUtf8
  | sinkFull
  | flushRefused
  | other (text : String)
  deriving DecidableEq, Repr

/-- Wording of an access fault. -/
def AccessFault.text : AccessFault → String
  | .notFound => "No such file or directory (os error 2)"
  | .isDirectory => "Is a directory (os error 21)"
  | .notDirectory => "Not a directory (os error 20)"
  | .nameTooLong => "File name too long (os error 36)"
  | .nulInPath => "file name contained an unexpected NUL byte"
  | .notUtf8 => "stream did not contain valid UTF-8"
  | .sinkFull => "sink is full"
  | .flushRefused => "flush refused"
  | .other text => text

/-- Cause for which a compilation ends without its result. -/
inductive Error where
  /-- A name is declared twice with one type in one scope. -/
  | duplicateDeclaration (scope : ScopeId) (ident : String)
  /-- A name is used where no declaration of it is visible. -/
  | undeclaredVariable (ident : String)
  /-- A `STRING` variable is read into. -/
  | unsupportedRead (ident : String)
  /-- An operation would have type `STRING`. -/
  | stringArithmetic (operand : String)
  /-- A file or stream cannot be read or written. -/
  | access (path : String) (fault : AccessFault)
  /-- The input is no parse tree. -/
  | parseTree (defect : Json.Defect)
  deriving DecidableEq, Repr

namespace Error

/-- Wording of an error. -/
def message : Error → String
  | .duplicateDeclaration _ ident => "DECLARATION ERROR " ++ ident
  | .undeclaredVariable ident => "use of undeclared identifier '" ++ ident ++ "'"
  | .unsupportedRead ident => "cannot read into STRING variable '" ++ ident ++ "'"
  | .stringArithmetic operand => "arithmetic on STRING operand '" ++ operand ++ "'"
  | .access path fault => "failed to access '" ++ path ++ "': " ++ fault.text
  | .parseTree defect => "malformed parse tree: " ++ defect.message

/-- Whether the run still counts as a success: a duplicate declaration is a finding about the
program, printed in place of the result. -/
def isDeclarationError : Error → Bool
  | .duplicateDeclaration .. => true
  | _ => false

end Error

/-- A call order, or an instruction, that no parse tree gives rise to. -/
inductive Misuse where
  | declarationOutsideScope
  | elseWithoutIf
  | endWithoutIf
  | reductionWithoutOperator
  | missingRightOperand
  | missingLeftOperand
  | missingValue
  | missingResult
  | untypedComputation
  | stringArithmetic
  | stringRead
  deriving DecidableEq, Repr

/-- Wording of a misuse. -/
def Misuse.message : Misuse → String
  | .declarationOutsideScope => "declarations should only occur inside an open scope"
  | .elseWithoutIf => "enter_else should follow a matching enter_if"
  | .endWithoutIf => "exit_if should follow a matching enter_if"
  | .reductionWithoutOperator =>
    "internal error: entered unreachable code: reduce should only be called with an operator on top"
  | .missingRightOperand => "operator should have a right operand"
  | .missingLeftOperand => "operator should have a left operand"
  | .missingValue => "assignment should have a value expression"
  | .missingResult => "expression should leave one value"
  | .untypedComputation =>
    "internal error: entered unreachable code: computed values are always typed"
  | .stringArithmetic =>
    "internal error: entered unreachable code: STRING arithmetic is rejected during IR generation"
  | .stringRead =>
    "internal error: entered unreachable code: STRING reads are rejected during IR generation"

/-- What can stop a stage. -/
inductive Fault where
  | error (error : Error)
  | misuse (misuse : Misuse)
  deriving DecidableEq, Repr

/-- What comes of a computation that can be misused and has no errors of its own. -/
def Fault.ofMisuse {α : Type} : Except Misuse α → Except Fault α
  | .error m => .error (.misuse m)
  | .ok a => .ok a

end TinyGen
