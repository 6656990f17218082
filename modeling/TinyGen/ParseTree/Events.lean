import TinyGen.Event

/-!
# The events of a parse tree

`Program.events` lists what the walk over a program raises.
-/

namespace TinyGen.ParseTree

/-- Event of a declaration. -/
def Decl.event : Decl → Event
  | .var ty idents => .varDecl ty idents
  | .string ident literal => .stringDecl ident literal

/-- Event of a parameter list. A procedure without parameters raises none. -/
def paramEvents : List Param → List Event
  | [] => []
  | params => [.paramDecls params]

mutual

/-- Events of an expression. -/
def Expr.events : Expr → List Event
  | ⟨first, rest⟩ => first.events ++ termEvents rest

/-- Events of additive operators and their factors. -/
def termEvents : List (AddOp × Factor) → List Event
  | [] => []
  | (op, factor) :: rest => .addOp op :: (factor.events ++ termEvents rest)

/-- Events of a factor. -/
def Factor.events : Factor → List Event
  | ⟨first, rest⟩ => first.events ++ productEvents rest

/-- Events of multiplicative operators and their primaries. -/
def productEvents : List (MulOp × Primary) → List Event
  | [] => []
  | (op, primary) :: rest => .mulOp op :: (primary.events ++ productEvents rest)

/-- Events of a primary. -/
def Primary.events : Primary → List Event
  | .atom text => [.enterAtom text, .exitAtom text]
  | .group inner => .enterGroup inner :: (inner.events ++ [.exitGroup inner])

end

/-- Events of a condition. -/
def Cond.events (cond : Cond) : List Event :=
  cond.lhs.events ++ cond.rhs.events

mutual

/-- Events of a statement. -/
def Stmt.events : Stmt → List Event
  | .assign target expr => .enterAssign target :: (expr.events ++ [.exitAssign target])
  | .read idents => [.read idents]
  | .write idents => [.write idents]
  | .return expr => expr.events
  | .ifThen cond decls body elsePart =>
    .enterIf elsePart.isSome ::
      (cond.events ++ decls.map Decl.event ++ stmtEvents body ++ elseEvents elsePart ++ [.exitIf])
  | .while cond decls body =>
    .enterWhile :: (cond.events ++ decls.map Decl.event ++ stmtEvents body ++ [.exitWhile])

/-- Events of statements. -/
def stmtEvents : List Stmt → List Event
  | [] => []
  | stmt :: rest => stmt.events ++ stmtEvents rest

/-- Events of the else part of an `if`, if there is one. -/
def elseEvents : Option ElsePart → List Event
  | none => []
  | some ⟨decls, body⟩ =>
    .enterElse :: (decls.map Decl.event ++ stmtEvents body ++ [.exitElse])

end

/-- Events of a procedure. -/
def FuncDecl.events (func : FuncDecl) : List Event :=
  .enterProcedure func.ident ::
    (paramEvents func.params ++ func.decls.map Decl.event ++ stmtEvents func.body ++
      [.exitProcedure func.ident])

/-- Events of a program, in the order of the walk. -/
def Program.events (program : Program) : List Event :=
  .enterProgram program.ident ::
    (program.decls.map Decl.event ++ program.funcs.flatMap FuncDecl.events ++ [.exitProgram])

end TinyGen.ParseTree
