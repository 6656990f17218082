import TinyGen.Proofs.Reading
import TinyGen.Proofs.ScopeStack
import TinyGen.Proofs.ScopeTable

/-!
# Statement trees and lexical scoping

`Program.lexical` lists the statement trees of a program by recursion on its parse tree, where every
statement is given the scopes that enclose it. The else part of an `if` is given those that enclose the
`if`.

`Program.statements_eq` says that the walk over the program gives these statement trees. The induction
is on statements (`Stmt.walk_lexical`): between two of them no assignment is open, and the visible
scopes of the stack are the enclosing ones.
-/

namespace TinyGen

open ParseTree

/-! ## Names in enclosing scopes -/

namespace ScopeTable

/-- What a name refers to where `scopes` enclose it, the innermost first. -/
def resolveIn (t : ScopeTable) (scopes : List ScopeId) (ident : String) : Except Error VarRef :=
  match t.innermost? ident scopes with
  | none => .error (.undeclaredVariable ident)
  | some symbol => .ok ⟨symbol.ident, symbol.ty⟩

/-- The operand of an atom where `scopes` enclose it. -/
def operandIn (t : ScopeTable) (scopes : List ScopeId) (text : String) : Except Error Term :=
  if Text.isNumeral text then .ok (.literal text)
  else (t.resolveIn scopes text).map .var

end ScopeTable

namespace ParseTree

/-- The statement trees of a declaration. -/
def Decl.strings : Decl → List Statement
  | .var _ _ => []
  | .string ident literal => [.stringDecl ident literal]

section Lexical

variable (t : ScopeTable)

mutual

/-- The statement trees of a statement that `scopes` enclose, where `next` is the number of the first
block. -/
def Stmt.lexical (scopes : List ScopeId) (next : Nat) : Stmt → Except Error (List Statement)
  | .assign target expr => do
    let v ← t.resolveIn scopes target
    let value ← expr.reading (t.operandIn scopes)
    return [.assign v value]
  | .read idents => do
    let vars ← idents.mapM (t.resolveIn scopes)
    return [.read vars]
  | .write idents => do
    let vars ← idents.mapM (t.resolveIn scopes)
    return [.write vars]
  | .return _ => .ok []
  | .ifThen _ decls body elsePart => do
    let inner ← stmtsLexical (.block next :: scopes) (next + 1) body
    let other ← elseLexical scopes (next + 1 + stmtBlocks body) elsePart
    return decls.flatMap Decl.strings ++ inner ++ other
  | .while _ decls body => do
    let inner ← stmtsLexical (.block next :: scopes) (next + 1) body
    return decls.flatMap Decl.strings ++ inner

/-- The statement trees of statements. -/
def stmtsLexical (scopes : List ScopeId) (next : Nat) : List Stmt → Except Error (List Statement)
  | [] => .ok []
  | stmt :: rest => do
    let first ← stmt.lexical scopes next
    let others ← stmtsLexical scopes (next + stmt.blockCount) rest
    return first ++ others

/-- The statement trees of the else part of an `if` that `scopes` enclose. -/
def elseLexical (scopes : List ScopeId) (next : Nat) :
    Option ElsePart → Except Error (List Statement)
  | none => .ok []
  | some ⟨decls, body⟩ => do
    let inner ← stmtsLexical (.block next :: scopes) (next + 1) body
    return decls.flatMap Decl.strings ++ inner

end

/-- The statement trees of a procedure. -/
def FuncDecl.lexical (next : Nat) (func : FuncDecl) : Except Error (List Statement) := do
  let inner ← stmtsLexical t [.procedure func.ident, .global] next func.body
  return func.decls.flatMap Decl.strings ++ inner

/-- The statement trees of procedures. -/
def funcsLexical (next : Nat) : List FuncDecl → Except Error (List Statement)
  | [] => .ok []
  | func :: rest => do
    let first ← func.lexical t next
    let others ← funcsLexical (next + stmtBlocks func.body) rest
    return first ++ others

/-- The statement trees of a program over a scope table. -/
def Program.lexical (program : Program) : Except Error (List Statement) := do
  let inner ← funcsLexical t 1 program.funcs
  return program.decls.flatMap Decl.strings ++ inner

end Lexical

end ParseTree

/-! ## Steps of the builder -/

namespace Statement.Builder

/-- A name is resolved in the scopes that are visible. -/
theorem resolve_eq (b : Builder) : b.resolve = b.table.resolveIn b.scopes.visible := by
  funext ident
  have hlookup := b.table.lookup?_eq_innermost? b.scopes.visible ident
  cases h : b.table.innermost? ident b.scopes.visible with
  | none => simp only [resolve, ScopeTable.resolveIn, hlookup, h]
  | some symbol => simp only [resolve, ScopeTable.resolveIn, hlookup, h]

theorem operand_eq (b : Builder) : b.operand = b.table.operandIn b.scopes.visible := by
  funext text
  rw [operand, resolve_eq, ScopeTable.operandIn]

theorem resolveAll_eq (b : Builder) (idents : List String) :
    b.resolveAll idents = idents.mapM b.resolve := by
  induction idents with
  | nil => rfl
  | cons ident rest ih => rw [resolveAll, ih, List.mapM_cons]

/-- A statement is pushed if all of its names are resolved. -/
theorem pushResolved_result (b : Builder) (statement : List VarRef → Statement)
    (idents : List String) :
    (b.pushResolved statement idents).result =
      Fault.lift (idents.mapM (b.table.resolveIn b.scopes.visible)) fun vars =>
        b.push (statement vars) := by
  rw [pushResolved, resolveAll_eq, resolve_eq]
  cases idents.mapM (b.table.resolveIn b.scopes.visible) <;> rfl

/-- Without an open assignment the events of expressions do nothing. -/
theorem inert_raise {b : Builder} (h : b.assign = none) : Inert raise b := by
  intro e he
  obtain ⟨t, s, out, assign⟩ := b
  cases h
  cases e <;> first | rfl | cases he

theorem raise_exitIf {s s' : ScopeStack} {t : ScopeTable} {out : List Statement}
    {a : Option OpenAssign} (h : s.exitIf = .ok s') :
    raise ⟨t, s, out, a⟩ .exitIf = .ok ⟨t, s', out, a⟩ := by
  show call ⟨t, s, out, a⟩ .exitIf = _
  simp only [call, ScopeStack.apply, h]

/-- Only strings leave a statement tree. -/
theorem walkDecls_raise (decls : List Decl) (t : ScopeTable) (s : ScopeStack) (out : List Statement)
    (a : Option OpenAssign) :
    walkDecls raise decls ⟨t, s, out, a⟩ = .ok ⟨t, s, out ++ decls.flatMap Decl.strings, a⟩ := by
  induction decls generalizing out with
  | nil => rw [List.flatMap_nil, List.append_nil]; rfl
  | cons decl rest ih =>
    have hd : raise ⟨t, s, out, a⟩ decl.event = .ok ⟨t, s, out ++ decl.strings, a⟩ := by
      cases decl with
      | var ty idents => rw [Decl.strings, List.append_nil]; rfl
      | string ident literal => rfl
    rw [walkDecls_cons, hd, Step.ok_andThen, ih, List.flatMap_cons, List.append_assoc]

end Statement.Builder

/-! ## The walk -/

namespace ParseTree

open Statement.Builder

/-- An assignment is pushed with the value read from its expression. -/
theorem Stmt.walk_assign (target : String) (expr : Expr) (t : ScopeTable) (s : ScopeStack)
    (out : List Statement) :
    ((Stmt.assign target expr).walk raise ⟨t, s, out, none⟩).result =
      Fault.lift ((Stmt.assign target expr).lexical t s.visible s.nextBlock)
        fun new => ⟨t, s, out ++ new, none⟩ := by
  have henter : (raise ⟨t, s, out, none⟩ (.enterAssign target)).result =
      Fault.lift (t.resolveIn s.visible target)
        fun v => editing ⟨t, s, out, none⟩ ⟨v, [], []⟩ := by
    show (enterAssign ⟨t, s, out, none⟩ target).result = _
    rw [enterAssign, resolve_eq]
    cases t.resolveIn s.visible target <;> rfl
  rw [Stmt.walk, Stmt.lexical, Step.andThen_assoc]
  refine Step.result_andThen_lift henter fun v => ?_
  have hread := Expr.walk_reading expr ⟨t, s, out, none⟩ (a := ⟨v, [], []⟩)
    (OpenAssign.blocked_nil 1)
  rw [operand_eq] at hread
  rw [Fault.lift_bind_pure]
  refine hread.result_andThen ?_
  rintro value _ ⟨a, rfl, ha⟩
  show (editing ⟨t, s, out, none⟩ a).exitAssign = _
  simp only [exitAssign, editing, ha.finish]
  rfl

mutual

/-- The walk over a statement adds its statement trees. Afterwards the same scopes are open, and the
numbers of its blocks are used up. -/
theorem Stmt.walk_lexical (stmt : Stmt) (t : ScopeTable) {s : ScopeStack} (out : List Statement)
    (h : s.Nested) :
    (stmt.walk raise ⟨t, s, out, none⟩).result =
      Fault.lift (stmt.lexical t s.visible s.nextBlock)
        fun new => ⟨t, s.renumber (s.nextBlock + stmt.blockCount), out ++ new, none⟩ := by
  match stmt with
  | .assign target expr => exact Stmt.walk_assign target expr t s out
  | .read idents =>
    rw [Stmt.walk, Stmt.lexical, Fault.lift_bind_pure]
    exact pushResolved_result ⟨t, s, out, none⟩ .read idents
  | .write idents =>
    rw [Stmt.walk, Stmt.lexical, Fault.lift_bind_pure]
    exact pushResolved_result ⟨t, s, out, none⟩ .write idents
  | .return expr =>
    rw [Stmt.walk, Stmt.lexical, Expr.walk_of_inert (inert_raise rfl), Fault.lift, List.append_nil]
    rfl
  | .ifThen cond decls body elsePart =>
    rw [Stmt.walk, Stmt.lexical, Stmt.blockCount]
    show Step.result (Step.andThen (cond.walk raise ⟨t, s.enterIf, out, none⟩) _) = _
    rw [Cond.walk_of_inert (inert_raise rfl), Step.ok_andThen, walkDecls_raise, Step.ok_andThen]
    have hbody := walkStmts_lexical body t (out ++ decls.flatMap Decl.strings) h.enterIf
    rw [h.visible_enterIf, ScopeStack.nextBlock_enterIf] at hbody
    refine Step.result_andThen_lift hbody fun inner => ?_
    -- The else part starts with the numbers that the first body has left.
    have helse := walkElse_lexical elsePart t (out ++ decls.flatMap Decl.strings ++ inner) h
      (s.nextBlock + 1 + stmtBlocks body)
    simp only [Fault.lift_bind_pure, ← List.append_assoc, ← Nat.add_assoc]
    exact helse
  | .while cond decls body =>
    rw [Stmt.walk, Stmt.lexical, Stmt.blockCount]
    show Step.result (Step.andThen (cond.walk raise ⟨t, s.enterBlock, out, none⟩) _) = _
    rw [Cond.walk_of_inert (inert_raise rfl), Step.ok_andThen, walkDecls_raise, Step.ok_andThen]
    have hbody := walkStmts_lexical body t (out ++ decls.flatMap Decl.strings)
      ((h.push (.block s.nextBlock)).renumber (s.nextBlock + 1))
    rw [ScopeStack.visible_renumber, h.visible_push, ScopeStack.nextBlock_renumber,
      ScopeStack.renumber_renumber] at hbody
    simp only [Fault.lift_bind_pure, ← List.append_assoc, ← Nat.add_assoc]
    exact Step.result_andThen_ok hbody fun inner => rfl

/-- Statements give their trees in order, and use up the numbers of their blocks. -/
theorem walkStmts_lexical (stmts : List Stmt) (t : ScopeTable) {s : ScopeStack}
    (out : List Statement) (h : s.Nested) :
    (walkStmts raise stmts ⟨t, s, out, none⟩).result =
      Fault.lift (stmtsLexical t s.visible s.nextBlock stmts)
        fun new => ⟨t, s.renumber (s.nextBlock + stmtBlocks stmts), out ++ new, none⟩ := by
  match stmts with
  | [] =>
    rw [walkStmts, stmtsLexical, Fault.lift, List.append_nil]
    rfl
  | stmt :: rest =>
    rw [walkStmts, stmtsLexical, stmtBlocks]
    refine Step.result_andThen_lift (Stmt.walk_lexical stmt t out h) fun first => ?_
    rw [walkStmts_lexical rest t (out ++ first) (h.renumber (s.nextBlock + stmt.blockCount)),
      Fault.lift_bind_pure]
    simp only [ScopeStack.visible_renumber, ScopeStack.nextBlock_renumber,
      ScopeStack.renumber_renumber, List.append_assoc, Nat.add_assoc]

/-- The else part of an `if` that was entered in `s`, and the end of the `if`. -/
theorem walkElse_lexical (elsePart : Option ElsePart) (t : ScopeTable) {s : ScopeStack}
    (out : List Statement) (h : s.Nested) (n : Nat) :
    ((walkElse raise elsePart ⟨t, s.enterIf.renumber n, out, none⟩).andThen
        fun b => b.raise .exitIf).result =
      Fault.lift (elseLexical t s.visible n elsePart)
        fun new => ⟨t, s.renumber (n + elseBlocks elsePart), out ++ new, none⟩ := by
  match elsePart with
  | none =>
    rw [walkElse, Step.ok_andThen, raise_exitIf (ScopeStack.exitIf_enterIf s n), elseLexical,
      Fault.lift, List.append_nil]
    rfl
  | some ⟨decls, body⟩ =>
    rw [walkElse, elseLexical, elseBlocks, Fault.lift_bind_pure]
    show Step.result (Step.andThen (Step.andThen
      (walkDecls raise decls ⟨t, s.inElse n, out, none⟩) _) _) = _
    rw [walkDecls_raise, Step.ok_andThen, Step.andThen_assoc]
    have hbody := walkStmts_lexical body t (out ++ decls.flatMap Decl.strings) (h.inElse n)
    rw [h.visible_inElse, ScopeStack.nextBlock_inElse] at hbody
    refine Step.result_andThen_ok hbody fun inner => ?_
    have helse : ∀ b : Statement.Builder, b.raise .exitElse = .ok b := fun _ => rfl
    rw [helse, Step.ok_andThen, raise_exitIf (ScopeStack.exitIf_inElse s n _), Nat.add_assoc,
      List.append_assoc]

end

/-- A procedure sees its own scope and the global one. -/
theorem FuncDecl.walk_lexical (func : FuncDecl) (t : ScopeTable) {s : ScopeStack}
    (out : List Statement) (h : s.Nested) (hv : s.visible = [.global]) :
    (func.walk raise ⟨t, s, out, none⟩).result =
      Fault.lift (func.lexical t s.nextBlock)
        fun new => ⟨t, s.renumber (s.nextBlock + stmtBlocks func.body), out ++ new, none⟩ := by
  have hparams : ∀ b : Statement.Builder, walkParams raise func.params b = .ok b := by
    intro b
    cases func.params <;> rfl
  rw [FuncDecl.walk, FuncDecl.lexical, Fault.lift_bind_pure]
  show Step.result (Step.andThen (walkParams raise func.params
    ⟨t, s.push (.procedure func.ident), out, none⟩) _) = _
  rw [hparams, Step.ok_andThen, walkDecls_raise, Step.ok_andThen]
  have hbody := walkStmts_lexical func.body t (out ++ func.decls.flatMap Decl.strings)
    (h.push (.procedure func.ident))
  rw [h.visible_push, hv] at hbody
  simp only [← List.append_assoc]
  exact Step.result_andThen_ok hbody fun inner => rfl

theorem walkFuncs_lexical (funcs : List FuncDecl) (t : ScopeTable) {s : ScopeStack}
    (out : List Statement) (h : s.Nested) (hv : s.visible = [.global]) :
    (walkFuncs raise funcs ⟨t, s, out, none⟩).result =
      Fault.lift (funcsLexical t s.nextBlock funcs)
        fun new => ⟨t, s.renumber (s.nextBlock + funcBlocks funcs), out ++ new, none⟩ := by
  induction funcs generalizing s out with
  | nil =>
    rw [walkFuncs, funcsLexical, Fault.lift, List.append_nil]
    rfl
  | cons func rest ih =>
    rw [walkFuncs, funcsLexical, funcBlocks]
    refine Step.result_andThen_lift (FuncDecl.walk_lexical func t out h hv) fun first => ?_
    rw [ih (out ++ first) (h.renumber (s.nextBlock + stmtBlocks func.body)) hv, Fault.lift_bind_pure]
    simp only [ScopeStack.nextBlock_renumber, ScopeStack.renumber_renumber, List.append_assoc,
      Nat.add_assoc]

/-- Statements are made as the lexical rules say, and no misuse occurs. -/
theorem Program.statements_eq (program : Program) (t : ScopeTable) :
    program.statements t = Fault.lift (program.lexical t) id := by
  have hfuncs := walkFuncs_lexical program.funcs t (program.decls.flatMap Decl.strings)
    (ScopeStack.nested_empty.push .global) (ScopeStack.nested_empty.visible_push .global)
  have hwalk : (program.walk raise (.new t)).result = Fault.lift (program.lexical t)
      fun new => ⟨t, ScopeStack.empty.renumber (1 + funcBlocks program.funcs), new, none⟩ := by
    rw [Program.walk, Program.lexical, Fault.lift_bind_pure]
    show Step.result (Step.andThen (walkDecls raise program.decls
      ⟨t, ScopeStack.empty.push .global, [], none⟩) _) = _
    rw [walkDecls_raise, Step.ok_andThen]
    exact Step.result_andThen_ok hfuncs fun inner => rfl
  rw [Program.statements, hwalk, Fault.map_lift]
  rfl

theorem Program.lexical_of_statements {program : Program} {t : ScopeTable}
    {statements : List Statement} (h : program.statements t = .ok statements) :
    program.lexical t = .ok statements := by
  rw [Program.statements_eq] at h
  cases hl : program.lexical t with
  | error e => rw [hl] at h; cases h
  | ok trees =>
    rw [hl] at h
    cases h
    rfl

end ParseTree

end TinyGen
