import TinyGen.ParseTree.Walk
import TinyGen.ScopeStack
import TinyGen.ScopeTable

/-!
# Building the scope table

The scope table of a program, built from the events of its walk: entering a scope opens it in the
table, and a declaration adds to the innermost open scope. A scope that is opened again loses its
earlier symbols.

Main definitions: `ScopeTable.Builder.raise` and `Program.scopeTable`.
-/

namespace TinyGen

open ParseTree

/-- The symbols that an event declares, in order. -/
def Event.declared : Event → List Symbol
  | .varDecl ty idents => idents.map fun ident => ⟨ident, .num ty⟩
  | .paramDecls params => params.map fun param => ⟨param.ident, .num param.ty⟩
  | .stringDecl ident literal => [⟨ident, .str literal⟩]
  | _ => []

namespace ScopeTable

/-- A table under construction. -/
structure Builder where
  table : ScopeTable
  scopes : ScopeStack
  deriving DecidableEq, Repr

namespace Builder

/-- Nothing is declared and no scope is open. -/
def empty : Builder := ⟨.empty, .empty⟩

/-- Symbols declared so far in a scope. -/
def declaredIn (b : Builder) (id : ScopeId) : List Symbol :=
  (b.table.symbols? id).getD []

/-- Declares a symbol in the innermost open scope. -/
def declare (b : Builder) (symbol : Symbol) : Step Fault Builder :=
  match b.scopes.current with
  | none => .stop b (.misuse .declarationOutsideScope)
  | some id =>
    let symbols := b.declaredIn id
    if symbols.any (·.clashes symbol) then
      .stop b (.error (.duplicateDeclaration id symbol.ident))
    else .ok { b with table := b.table.insert id (symbols ++ [symbol]) }

/-- Declares symbols one after another, up to the first that cannot be declared. -/
def declareAll : List Symbol → Builder → Step Fault Builder
  | [], b => .ok b
  | symbol :: rest, b => (b.declare symbol).andThen (declareAll rest)

/-- Opens the innermost scope in the table, without symbols. -/
def openCurrent (b : Builder) : Builder :=
  match b.scopes.current with
  | none => b
  | some id => { b with table := b.table.insert id [] }

/-- Changes the open scopes. -/
def call (b : Builder) (c : ScopeStack.Call) : Step Fault Builder :=
  match b.scopes.apply c with
  | .error misuse => .stop b (.misuse misuse)
  | .ok scopes =>
    let b := { b with scopes }
    .ok (if c.opens then b.openCurrent else b)

/-- Takes in one event. -/
def raise (b : Builder) (event : Event) : Step Fault Builder :=
  match event.scopeCall? with
  | some c => b.call c
  | none => b.declareAll event.declared

/-- The table, and the builder to start over with. -/
def finish (b : Builder) : ScopeTable × Builder :=
  (b.table, .empty)

end Builder

end ScopeTable

/-- The scope table of a program. -/
def ParseTree.Program.scopeTable (program : Program) : Except Fault ScopeTable :=
  (program.walk ScopeTable.Builder.raise .empty).result.map (·.finish.1)

end TinyGen
