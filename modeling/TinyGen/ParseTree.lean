import TinyGen.Ty

/-!
# Parse trees

Parse tree of a Little program as the parser hands it over: declarations, procedures, statements
with their nested bodies, and expressions in two tiers. An expression is a first factor with
additive operators and factors after it, a factor is a first primary with multiplicative operators
and primaries after it, and a primary is an atom or a parenthesised expression.
-/

namespace TinyGen.ParseTree

/-- Operator of the additive tier. -/
inductive AddOp where
  | add
  | sub
  deriving DecidableEq, Repr

/-- Operator of the multiplicative tier. -/
inductive MulOp where
  | mul
  | div
  deriving DecidableEq, Repr

/-- Comparison in the condition of an `if` or a `while`. -/
inductive CompOp where
  | less
  | greater
  | equal
  | notEqual
  | lessEqual
  | greaterEqual
  deriving DecidableEq, Repr

mutual

/-- Factors joined by additive operators. -/
structure Expr where
  first : Factor
  rest : List (AddOp × Factor)

/-- Primaries joined by multiplicative operators. -/
structure Factor where
  first : Primary
  rest : List (MulOp × Primary)

/-- A number or a name, as its text, or an expression in parentheses. -/
inductive Primary where
  | atom (text : String)
  | group (inner : Expr)

end

/-- Comparison of two expressions. -/
structure Cond where
  lhs : Expr
  op : CompOp
  rhs : Expr

/-- Declaration of variables of one type, or of one string with its text. -/
inductive Decl where
  | var (ty : NumTy) (idents : List String)
  | string (ident literal : String)
  deriving DecidableEq, Repr

/-- Parameter of a procedure. -/
structure Param where
  ty : NumTy
  ident : String
  deriving DecidableEq, Repr

mutual

/-- Statement. The bodies of `if`, `else` and `while` have declarations of their own. -/
inductive Stmt where
  | assign (target : String) (expr : Expr)
  | read (idents : List String)
  | write (idents : List String)
  | return (expr : Expr)
  | ifThen (cond : Cond) (decls : List Decl) (body : List Stmt) (elsePart : Option ElsePart)
  | while (cond : Cond) (decls : List Decl) (body : List Stmt)

/-- The part of an `if` that runs when the condition fails. -/
structure ElsePart where
  decls : List Decl
  body : List Stmt

end

/-- Procedure. -/
structure FuncDecl where
  ident : String
  params : List Param
  decls : List Decl
  body : List Stmt

/-- Whole program. -/
structure Program where
  ident : String
  decls : List Decl
  funcs : List FuncDecl

namespace AddOp

/-- Spelling of the operator. -/
def text : AddOp → String
  | .add => "+"
  | .sub => "-"

end AddOp

namespace MulOp

/-- Spelling of the operator. -/
def text : MulOp → String
  | .mul => "*"
  | .div => "/"

end MulOp

namespace CompOp

/-- Spelling of the comparison. -/
def text : CompOp → String
  | .less => "<"
  | .greater => ">"
  | .equal => "="
  | .notEqual => "!="
  | .lessEqual => "<="
  | .greaterEqual => ">="

end CompOp

end TinyGen.ParseTree
