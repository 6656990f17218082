import TinyGen.ParseTree.Walk
import TinyGen.ScopeStack
import TinyGen.ScopeTable
import TinyGen.Statement
import TinyGen.Text.Numeral

/-!
# Building the statement trees

The statement trees of a program, built from the events of its walk over a finished scope table.
The operands and operators of an assignment arrive in the order they are written; operators wait on
a stack until one that binds no tighter follows, a group closes, or the assignment ends. Operands
and operators outside an assignment belong to conditions and returned values and build nothing.

Main definitions: `Statement.Builder.raise` and `Program.statements`.
-/

namespace TinyGen

open ParseTree

/-- An operator that waits for its right operand, or a group that is not closed. -/
inductive Pending where
  | operator (op : BinOp)
  | group
  deriving DecidableEq, Repr

/-- An assignment under construction; both stacks have their tops first. -/
structure OpenAssign where
  target : VarRef
  operands : List Term
  pending : List Pending
  deriving DecidableEq, Repr

namespace OpenAssign

/-- Combines the two operands on top by what was taken off the other stack, which has to be an
operator. The right operand is taken off before the left one. -/
def combine (top : Option Pending) (operands : List Term) : Except Misuse (List Term) :=
  match top with
  | some (.operator op) =>
    match operands with
    | [] => .error .missingRightOperand
    | [_] => .error .missingLeftOperand
    | rhs :: lhs :: rest => .ok (.binary op lhs rhs :: rest)
  | _ => .error .reductionWithoutOperator

/-- Applies the waiting operators that `select` takes, from the top down to the first it does not
take or to a group. -/
def reduce (select : BinOp → Bool) :
    List Term → List Pending → Except Misuse (List Term × List Pending)
  | operands, .operator op :: pending =>
    if select op then
      match combine (some (.operator op)) operands with
      | .error m => .error m
      | .ok operands => reduce select operands pending
    else .ok (operands, .operator op :: pending)
  | operands, pending => .ok (operands, pending)

/-- Adds an operand. -/
def pushOperand (a : OpenAssign) (operand : Term) : OpenAssign :=
  { a with operands := operand :: a.operands }

/-- Adds an operator, after applying those that bind at least as tightly. -/
def pushOperator (a : OpenAssign) (op : BinOp) : Except Misuse OpenAssign := do
  let (operands, pending) ← reduce (op.precedence ≤ ·.precedence) a.operands a.pending
  return { a with operands, pending := .operator op :: pending }

/-- Opens a group. -/
def openGroup (a : OpenAssign) : OpenAssign :=
  { a with pending := .group :: a.pending }

/-- Closes the innermost group, after applying the operators in it. -/
def closeGroup (a : OpenAssign) : Except Misuse OpenAssign := do
  let (operands, pending) ← reduce (fun _ => true) a.operands a.pending
  return { a with operands, pending := pending.tail }

/-- The finished assignment. -/
def finish (a : OpenAssign) : Except Misuse Statement := do
  let (operands, _) ← reduce (fun _ => true) a.operands a.pending
  match operands with
  | [] => .error .missingValue
  | value :: _ => return .assign a.target value

end OpenAssign

namespace Statement

/-- Statement trees under construction. -/
structure Builder where
  table : ScopeTable
  scopes : ScopeStack
  statements : List Statement
  assign : Option OpenAssign
  deriving DecidableEq, Repr

namespace Builder

/-- Nothing is built over `table` yet. -/
def new (table : ScopeTable) : Builder :=
  ⟨table, .empty, [], none⟩

/-- What a name refers to at this point. -/
def resolve (b : Builder) (ident : String) : Except Error VarRef :=
  match b.table.lookup? b.scopes.visible ident with
  | none => .error (.undeclaredVariable ident)
  | some symbol => .ok ⟨symbol.ident, symbol.ty⟩

/-- What each of several names refers to, or the error of the first that is not declared. -/
def resolveAll (b : Builder) : List String → Except Error (List VarRef)
  | [] => .ok []
  | ident :: rest => do
    let v ← b.resolve ident
    let vs ← b.resolveAll rest
    return v :: vs

/-- Adds a finished statement. -/
def push (b : Builder) (statement : Statement) : Builder :=
  { b with statements := b.statements ++ [statement] }

/-- Adds the statement of resolved names, or stops at their error. -/
def pushResolved (b : Builder) (statement : List VarRef → Statement) (idents : List String) :
    Step Fault Builder :=
  match b.resolveAll idents with
  | .error e => .stop b (.error e)
  | .ok vars => .ok (b.push (statement vars))

/-- Changes the open assignment, if there is one. -/
def modifyAssign (b : Builder) (change : OpenAssign → Except Misuse OpenAssign) :
    Step Fault Builder :=
  match b.assign with
  | none => .ok b
  | some a =>
    match change a with
    | .error m => .stop b (.misuse m)
    | .ok a => .ok { b with assign := some a }

/-- The operand of an atom: a numeral stands for itself, any other text is a name. -/
def operand (b : Builder) (text : String) : Except Error Term :=
  if Text.isNumeral text then .ok (.literal text)
  else (b.resolve text).map .var

/-- Adds an atom to the open assignment. Without one the atom is not looked at. -/
def enterAtom (b : Builder) (text : String) : Step Fault Builder :=
  match b.assign with
  | none => .ok b
  | some a =>
    match b.operand text with
    | .error e => .stop b (.error e)
    | .ok t => .ok { b with assign := some (a.pushOperand t) }

/-- Starts an assignment. -/
def enterAssign (b : Builder) (target : String) : Step Fault Builder :=
  match b.resolve target with
  | .error e => .stop b (.error e)
  | .ok v => .ok { b with assign := some ⟨v, [], []⟩ }

/-- Ends the open assignment, if there is one. -/
def exitAssign (b : Builder) : Step Fault Builder :=
  match b.assign with
  | none => .ok b
  | some a =>
    match a.finish with
    | .error m => .stop b (.misuse m)
    | .ok statement => .ok ({ b with assign := none }.push statement)

/-- Changes the open scopes. -/
def call (b : Builder) (c : ScopeStack.Call) : Step Fault Builder :=
  match b.scopes.apply c with
  | .error m => .stop b (.misuse m)
  | .ok scopes => .ok { b with scopes }

/-- Takes in one event. -/
def raise (b : Builder) (event : Event) : Step Fault Builder :=
  match event.scopeCall? with
  | some c => b.call c
  | none =>
    match event with
    | .stringDecl ident literal => .ok (b.push (.stringDecl ident literal))
    | .enterAssign target => b.enterAssign target
    | .exitAssign _ => b.exitAssign
    | .read idents => b.pushResolved .read idents
    | .write idents => b.pushResolved .write idents
    | .addOp op => b.modifyAssign (·.pushOperator op.toBinOp)
    | .mulOp op => b.modifyAssign (·.pushOperator op.toBinOp)
    | .enterAtom text => b.enterAtom text
    | .enterGroup _ => b.modifyAssign (.ok ·.openGroup)
    | .exitGroup _ => b.modifyAssign (·.closeGroup)
    | _ => .ok b

end Builder

end Statement

/-- The statement trees of a program over its scope table. -/
def ParseTree.Program.statements (program : Program) (table : ScopeTable) :
    Except Fault (List Statement) :=
  (program.walk Statement.Builder.raise (.new table)).result.map (·.statements)

end TinyGen
