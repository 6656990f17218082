import TinyGen.Event

/-!
# The walk over a parse tree

`Program.walk` raises the events of a program on a stage, in order, up to the first fault.
-/

namespace TinyGen.ParseTree

section Walk

variable {ε σ : Type} (visit : σ → Event → Step ε σ)

mutual

/-- Walks over an expression. -/
def Expr.walk : Expr → σ → Step ε σ
  | ⟨first, rest⟩, state => (first.walk state).andThen (walkTerms rest)

/-- Walks over additive operators and their factors. -/
def walkTerms : List (AddOp × Factor) → σ → Step ε σ
  | [], state => .ok state
  | (op, factor) :: rest, state =>
    ((visit state (.addOp op)).andThen factor.walk).andThen (walkTerms rest)

/-- Walks over a factor. -/
def Factor.walk : Factor → σ → Step ε σ
  | ⟨first, rest⟩, state => (first.walk state).andThen (walkProducts rest)

/-- Walks over multiplicative operators and their primaries. -/
def walkProducts : List (MulOp × Primary) → σ → Step ε σ
  | [], state => .ok state
  | (op, primary) :: rest, state =>
    ((visit state (.mulOp op)).andThen primary.walk).andThen (walkProducts rest)

/-- Walks over a primary. -/
def Primary.walk : Primary → σ → Step ε σ
  | .atom text, state =>
    (visit state (.enterAtom text)).andThen fun state => visit state (.exitAtom text)
  | .group inner, state =>
    ((visit state (.enterGroup inner)).andThen inner.walk).andThen fun state =>
      visit state (.exitGroup inner)

end

/-- Walks over both sides of a condition. -/
def Cond.walk (cond : Cond) (state : σ) : Step ε σ :=
  (cond.lhs.walk visit state).andThen (cond.rhs.walk visit)

/-- Walks over declarations. -/
def walkDecls : List Decl → σ → Step ε σ
  | [], state => .ok state
  | .var ty idents :: rest, state => (visit state (.varDecl ty idents)).andThen (walkDecls rest)
  | .string ident literal :: rest, state =>
    (visit state (.stringDecl ident literal)).andThen (walkDecls rest)

/-- Walks over the parameters of a procedure, if it has any. -/
def walkParams (params : List Param) (state : σ) : Step ε σ :=
  if params.isEmpty then .ok state else visit state (.paramDecls params)

mutual

/-- Walks over a statement. -/
def Stmt.walk : Stmt → σ → Step ε σ
  | .assign target expr, state =>
    ((visit state (.enterAssign target)).andThen (expr.walk visit)).andThen fun state =>
      visit state (.exitAssign target)
  | .read idents, state => visit state (.read idents)
  | .write idents, state => visit state (.write idents)
  | .return expr, state => expr.walk visit state
  | .ifThen cond decls body elsePart, state =>
    (visit state (.enterIf elsePart.isSome)).andThen fun state =>
      (cond.walk visit state).andThen fun state =>
      (walkDecls visit decls state).andThen fun state =>
      (walkStmts body state).andThen fun state =>
      (walkElse elsePart state).andThen fun state =>
      visit state .exitIf
  | .while cond decls body, state =>
    (visit state .enterWhile).andThen fun state =>
      (cond.walk visit state).andThen fun state =>
      (walkDecls visit decls state).andThen fun state =>
      (walkStmts body state).andThen fun state =>
      visit state .exitWhile

/-- Walks over statements. -/
def walkStmts : List Stmt → σ → Step ε σ
  | [], state => .ok state
  | stmt :: rest, state => (stmt.walk state).andThen (walkStmts rest)

/-- Walks over the else part of an `if`, if there is one. -/
def walkElse : Option ElsePart → σ → Step ε σ
  | none, state => .ok state
  | some ⟨decls, body⟩, state =>
    (visit state .enterElse).andThen fun state =>
      (walkDecls visit decls state).andThen fun state =>
      (walkStmts body state).andThen fun state =>
      visit state .exitElse

end

/-- Walks over a procedure. -/
def FuncDecl.walk (func : FuncDecl) (state : σ) : Step ε σ :=
  (visit state (.enterProcedure func.ident)).andThen fun state =>
    (walkParams visit func.params state).andThen fun state =>
    (walkDecls visit func.decls state).andThen fun state =>
    (walkStmts visit func.body state).andThen fun state =>
    visit state (.exitProcedure func.ident)

/-- Walks over procedures. -/
def walkFuncs : List FuncDecl → σ → Step ε σ
  | [], state => .ok state
  | func :: rest, state => (func.walk visit state).andThen (walkFuncs rest)

/-- Walks over a program, up to the first fault. -/
def Program.walk (program : Program) (state : σ) : Step ε σ :=
  (visit state (.enterProgram program.ident)).andThen fun state =>
    (walkDecls visit program.decls state).andThen fun state =>
    (walkFuncs visit program.funcs state).andThen fun state =>
    visit state .exitProgram

end Walk

end TinyGen.ParseTree
