import TinyGen.Proofs.Walk
import TinyGen.ScopeTable

/-!
# Bodies of a program

`Program.bodies` lists the bodies of a program in the order in which they start, each with its scope
and the symbols it declares. The blocks among them are numbered in this order
(`blockNumbers_funcBodies`), so only a repeated procedure name repeats a scope
(`Program.nodup_scopes_bodies`).
-/

namespace TinyGen

open ParseTree

/-- A scope and what its body declares. -/
abbrev Body := ScopeId × List Symbol

namespace ParseTree

/-! ## Bodies -/

/-- The symbols of a declaration. -/
def Decl.symbols : Decl → List Symbol
  | .var ty idents => idents.map fun ident => ⟨ident, .num ty⟩
  | .string ident literal => [⟨ident, .str literal⟩]

/-- The symbol of a parameter. -/
def Param.symbol (param : Param) : Symbol :=
  ⟨param.ident, .num param.ty⟩

mutual

/-- The bodies in a statement, where `next` is the number of the first block. -/
def Stmt.bodies (next : Nat) : Stmt → List Body
  | .assign _ _ => []
  | .read _ => []
  | .write _ => []
  | .return _ => []
  | .ifThen _ decls body elsePart =>
    (.block next, decls.flatMap Decl.symbols) ::
      (stmtBodies (next + 1) body ++ elseBodies (next + 1 + stmtBlocks body) elsePart)
  | .while _ decls body =>
    (.block next, decls.flatMap Decl.symbols) :: stmtBodies (next + 1) body

/-- The bodies in statements. -/
def stmtBodies (next : Nat) : List Stmt → List Body
  | [] => []
  | stmt :: rest => stmt.bodies next ++ stmtBodies (next + stmt.blockCount) rest

/-- The bodies in the else part of an `if`. -/
def elseBodies (next : Nat) : Option ElsePart → List Body
  | none => []
  | some ⟨decls, body⟩ =>
    (.block next, decls.flatMap Decl.symbols) :: stmtBodies (next + 1) body

end

/-- The bodies in a procedure: its own, with its parameters before its declarations, and those in its
statements. -/
def FuncDecl.bodies (next : Nat) (func : FuncDecl) : List Body :=
  (.procedure func.ident, func.params.map Param.symbol ++ func.decls.flatMap Decl.symbols) ::
    stmtBodies next func.body

/-- The bodies in procedures. -/
def funcBodies (next : Nat) : List FuncDecl → List Body
  | [] => []
  | func :: rest => func.bodies next ++ funcBodies (next + stmtBlocks func.body) rest

/-- The bodies of a program in the order in which they start. -/
def Program.bodies (program : Program) : List Body :=
  (.global, program.decls.flatMap Decl.symbols) :: funcBodies 1 program.funcs

end ParseTree

/-- The number of a block. -/
def ScopeId.blockNumber? : ScopeId → Option Nat
  | .global => none
  | .block number => some number
  | .procedure _ => none

namespace ParseTree

/-! ## Scopes of the bodies -/

mutual

theorem Stmt.scopes_bodies (stmt : Stmt) (next : Nat) :
    (stmt.bodies next).map Prod.fst = (List.range' next stmt.blockCount).map ScopeId.block := by
  match stmt with
  | .assign _ _ => rfl
  | .read _ => rfl
  | .write _ => rfl
  | .return _ => rfl
  | .ifThen _ _ body elsePart =>
    rw [Stmt.bodies, Stmt.blockCount, List.map_cons, List.map_append, scopes_stmtBodies body,
      scopes_elseBodies elsePart, ← List.map_append, List.range'_append_1, Nat.add_assoc,
      Nat.add_comm 1, List.range'_succ]
    rfl
  | .while _ _ body =>
    rw [Stmt.bodies, Stmt.blockCount, List.map_cons, scopes_stmtBodies body, Nat.add_comm 1,
      List.range'_succ]
    rfl

theorem scopes_stmtBodies (stmts : List Stmt) (next : Nat) :
    (stmtBodies next stmts).map Prod.fst =
      (List.range' next (stmtBlocks stmts)).map ScopeId.block := by
  match stmts with
  | [] => rfl
  | stmt :: rest =>
    rw [stmtBodies, stmtBlocks, List.map_append, Stmt.scopes_bodies stmt, scopes_stmtBodies rest,
      ← List.map_append, List.range'_append_1]

theorem scopes_elseBodies (elsePart : Option ElsePart) (next : Nat) :
    (elseBodies next elsePart).map Prod.fst =
      (List.range' next (elseBlocks elsePart)).map ScopeId.block := by
  match elsePart with
  | none => rfl
  | some ⟨_, body⟩ =>
    rw [elseBodies, elseBlocks, List.map_cons, scopes_stmtBodies body, Nat.add_comm 1,
      List.range'_succ]
    rfl

end

theorem scopes_funcBodies_cons (func : FuncDecl) (rest : List FuncDecl) (next : Nat) :
    (funcBodies next (func :: rest)).map Prod.fst =
      .procedure func.ident :: ((List.range' next (stmtBlocks func.body)).map ScopeId.block ++
        (funcBodies (next + stmtBlocks func.body) rest).map Prod.fst) := by
  rw [funcBodies, List.map_append, ← scopes_stmtBodies]
  rfl

/-- Blocks are numbered in the order in which they start. -/
theorem blockNumbers_funcBodies (funcs : List FuncDecl) (next : Nat) :
    ((funcBodies next funcs).map Prod.fst).filterMap ScopeId.blockNumber? =
      List.range' next (funcBlocks funcs) := by
  induction funcs generalizing next with
  | nil => rfl
  | cons func rest ih =>
    have hblocks : (List.range' next (stmtBlocks func.body)).filterMap
        (ScopeId.blockNumber? ∘ ScopeId.block) = List.range' next (stmtBlocks func.body) :=
      List.filterMap_some
    rw [scopes_funcBodies_cons, List.filterMap_cons_none rfl, List.filterMap_append,
      List.filterMap_map, hblocks, ih, List.range'_append_1, funcBlocks]

/-- Each procedure and each block has one body. -/
theorem length_funcBodies (funcs : List FuncDecl) (next : Nat) :
    (funcBodies next funcs).length = funcs.length + funcBlocks funcs := by
  induction funcs generalizing next with
  | nil => rfl
  | cons func rest ih =>
    have hlength := congrArg List.length (scopes_funcBodies_cons func rest next)
    simp only [List.length_map, List.length_cons, List.length_append, List.length_range', ih] at hlength
    rw [hlength, List.length_cons, funcBlocks]
    omega

theorem mem_scopes_funcBodies {funcs : List FuncDecl} {next : Nat} {id : ScopeId}
    (h : id ∈ (funcBodies next funcs).map Prod.fst) :
    (∃ func ∈ funcs, id = .procedure func.ident) ∨ ∃ n, next ≤ n ∧ id = .block n := by
  induction funcs generalizing next with
  | nil => cases h
  | cons func rest ih =>
    rw [scopes_funcBodies_cons, List.mem_cons, List.mem_append, List.mem_map] at h
    rcases h with rfl | ⟨n, hn, rfl⟩ | hrest
    · exact .inl ⟨func, List.mem_cons_self, rfl⟩
    · exact .inr ⟨n, (List.mem_range'_1.mp hn).1, rfl⟩
    · rcases ih hrest with ⟨other, ho, rfl⟩ | ⟨n, hn, rfl⟩
      · exact .inl ⟨other, List.mem_cons_of_mem _ ho, rfl⟩
      · exact .inr ⟨n, by omega, rfl⟩

/-- Only a repeated procedure name repeats a scope. -/
theorem nodup_scopes_funcBodies {funcs : List FuncDecl} (h : (funcs.map FuncDecl.ident).Nodup)
    (next : Nat) : ((funcBodies next funcs).map Prod.fst).Nodup := by
  induction funcs generalizing next with
  | nil => exact .nil
  | cons func rest ih =>
    obtain ⟨hname, hrest⟩ := List.nodup_cons.mp h
    have hblocks : ((List.range' next (stmtBlocks func.body)).map ScopeId.block).Nodup :=
      List.Pairwise.map _ (fun a b hab he => hab (ScopeId.block.inj he)) List.nodup_range'
    rw [scopes_funcBodies_cons, List.nodup_cons, List.nodup_append, List.mem_append, List.mem_map]
    refine ⟨?_, hblocks, ih hrest _, ?_⟩
    · rintro (⟨n, -, hn⟩ | hmem)
      · cases hn
      · rcases mem_scopes_funcBodies hmem with ⟨other, ho, he⟩ | ⟨n, -, he⟩
        · exact hname (ScopeId.procedure.inj he ▸ List.mem_map_of_mem ho)
        · cases he
    · rintro id hid _ hmem rfl
      obtain ⟨n, hn, rfl⟩ := List.mem_map.mp hid
      rcases mem_scopes_funcBodies hmem with ⟨other, -, he⟩ | ⟨m, hm, he⟩
      · cases he
      · have := ScopeId.block.inj he
        have := (List.mem_range'_1.mp hn).2
        omega

theorem Program.nodup_scopes_bodies {program : Program}
    (h : (program.funcs.map FuncDecl.ident).Nodup) : (program.bodies.map Prod.fst).Nodup := by
  rw [Program.bodies, List.map_cons, List.nodup_cons]
  refine ⟨fun hmem => ?_, nodup_scopes_funcBodies h 1⟩
  rcases mem_scopes_funcBodies hmem with ⟨func, -, he⟩ | ⟨n, -, he⟩ <;> cases he

end ParseTree

end TinyGen
