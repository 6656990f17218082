import TinyGen.Fault
import TinyGen.ThreeAddress

/-!
# From statements to three-address code

The value of an assignment is lowered by a stack machine over its post-order listing. What stands on
the stack is a name or a constant, for which no code is needed, or a computed value: the code that
computes it and the temporary that holds it.

An operation has the type of its right operand in the additive tier and of its left operand in the
multiplicative tier. Constants are loaded into temporaries at the type of the operation they take
part in.

Main definition: `Code.ofStatements`.
-/

namespace TinyGen.ThreeAddress

/-- How a value is typed. -/
inductive Kind where
  | typed (ty : Ty)
  /-- A constant that is not loaded into a temporary yet. -/
  | constant
  deriving DecidableEq, Repr

/-- A value on the stack of the machine: the code that has to run before it is used, where it is
found then, and how it is typed. -/
structure Value where
  code : List Instr
  location : Operand
  kind : Kind
  deriving DecidableEq, Repr

namespace Value

/-- The value of a variable. -/
def var (v : VarRef) : Value := ⟨[], .var v.ident, .typed v.ty⟩

/-- The value of a constant. -/
def constant (text : String) : Value := ⟨[], .literal text, .constant⟩

/-- A value that is computed into a temporary. -/
def computed (code : List Instr) (result : Temp) (ty : Ty) : Value :=
  ⟨code, .temp result, .typed ty⟩

/-- Type of the value; a constant has the type of its spelling. -/
def ty (v : Value) : Ty :=
  match v.kind with
  | .typed ty => ty
  | .constant => .ofLiteral v.location.text

/-- An operand made ready for an operation of type `ty` whose result would go to temporary `dst`: a
constant is loaded into `dst`, and the result moves on to the next temporary. Gives the code of the
load, the operand, and the temporary for the result. -/
def ready (ty : Ty) (dst : Nat) (v : Value) : List Instr × Operand × Nat :=
  match v.kind with
  | .constant => ([.store ty v.location (.temp ⟨dst⟩)], .temp ⟨dst⟩, dst + 1)
  | .typed _ => ([], v.location, dst)

end Value

/-- The value of an operation, when `temps` temporaries are allocated; also gives the number of
temporaries allocated after it. -/
def applyOp (op : BinOp) (lhs rhs : Value) (temps : Nat) : Except Error (Value × Nat) :=
  let typedBy := if op.isAdditive then rhs else lhs
  let ty := typedBy.ty
  if ty = .string then .error (.stringArithmetic typedBy.location.text)
  else
    let (loadLeft, left, dst) := lhs.ready ty (temps + 1)
    let (loadRight, right, dst) := rhs.ready ty dst
    let operation := loadLeft ++ (loadRight ++ [.binary op ty left right ⟨dst⟩])
    let code := lhs.code ++ (rhs.code ++ operation)
    .ok (.computed code ⟨dst⟩ ty, dst)

/-- State of the machine: its stack, the top first, and the number of temporaries allocated. -/
structure Machine where
  stack : List Value
  temps : Nat
  deriving DecidableEq, Repr

namespace Machine

/-- Puts a value on the stack. -/
def push (m : Machine) (value : Value) : Machine :=
  { m with stack := value :: m.stack }

/-- Takes in one node of a post-order listing. The right operand is on top. -/
def step (m : Machine) : Term → Except Fault Machine
  | .literal text => .ok (m.push (.constant text))
  | .var v => .ok (m.push (.var v))
  | .binary op _ _ =>
    match m.stack with
    | [] => .error (.misuse .missingRightOperand)
    | [_] => .error (.misuse .missingLeftOperand)
    | rhs :: lhs :: stack =>
      match applyOp op lhs rhs m.temps with
      | .error e => .error (.error e)
      | .ok (value, temps) => .ok ⟨value :: stack, temps⟩

/-- Takes in nodes one after another. -/
def run (m : Machine) : List Term → Except Fault Machine
  | [] => .ok m
  | node :: rest =>
    match m.step node with
    | .error fault => .error fault
    | .ok m => m.run rest

end Machine

/-- The value of a term, when `temps` temporaries are allocated, and the number allocated after
it. -/
def lowerTerm (t : Term) (temps : Nat) : Except Fault (Value × Nat) :=
  match (Machine.mk [] temps).run t.postOrder with
  | .error fault => .error fault
  | .ok ⟨[], _⟩ => .error (.misuse .missingResult)
  | .ok ⟨value :: _, temps⟩ => .ok (value, temps)

/-- Copies `src` to `dst` by way of a new temporary. -/
def storeVia (ty : Ty) (src dst : Operand) (temps : Nat) : List Instr × Nat :=
  let t : Operand := .temp ⟨temps + 1⟩
  ([.store ty src t, .store ty t dst], temps + 1)

/-- Code that assigns a value, and the number of temporaries allocated after it. Without code of its
own, a constant is loaded at the type of the target, and a `FLOAT` is copied by way of a
temporary. -/
def storeValue (target : VarRef) (value : Value) (temps : Nat) :
    Except Misuse (List Instr × Nat) :=
  let dst : Operand := .var target.ident
  if value.code ≠ [] then
    match value.kind with
    | .typed ty => .ok (value.code ++ [.store ty value.location dst], temps)
    | .constant => .error .untypedComputation
  else
    match value.kind with
    | .constant => .ok (storeVia target.ty value.location dst temps)
    | .typed .float => .ok (storeVia .float value.location dst temps)
    | .typed ty => .ok ([.store ty value.location dst], temps)

/-- Code that reads into variables, or the error of the first `STRING` among them. -/
def readVars : List VarRef → Except Error (List Instr)
  | [] => .ok []
  | v :: rest =>
    if v.ty = .string then .error (.unsupportedRead v.ident)
    else (readVars rest).map (.read v.ty v.ident :: ·)

/-- Code of a statement, when `temps` temporaries are allocated, and the number allocated after
it. -/
def lowerStatement (statement : Statement) (temps : Nat) : Except Fault (List Instr × Nat) :=
  match statement with
  | .assign target value =>
    match lowerTerm value temps with
    | .error fault => .error fault
    | .ok (value, temps) => Fault.ofMisuse (storeValue target value temps)
  | .stringDecl _ _ => .ok ([], temps)
  | .read vars =>
    match readVars vars with
    | .error e => .error (.error e)
    | .ok instrs => .ok (instrs, temps)
  | .write vars => .ok (vars.map fun v => .write v.ty v.ident, temps)

/-- Code of statements, when `temps` temporaries are allocated, and the number allocated after
them. -/
def lowerStatements : List Statement → (temps : Nat) → Except Fault (List Instr × Nat)
  | [], temps => .ok ([], temps)
  | statement :: rest, temps => do
    let (instrs, temps) ← lowerStatement statement temps
    let (more, temps) ← lowerStatements rest temps
    return (instrs ++ more, temps)

/-- Three-address code of a program's statements: an entry label, the code of the statements in
order, and a return. -/
def Code.ofStatements (statements : List Statement) : Except Fault Code := do
  let (body, temps) ← lowerStatements statements 0
  return ⟨[.label "main", .link] ++ body ++ [.ret], temps⟩

end TinyGen.ThreeAddress
