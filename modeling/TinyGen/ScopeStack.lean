import TinyGen.Event
import TinyGen.Fault

/-!
# Open scopes

The scopes that are open at a point of the walk. Blocks get numbers that are never used again. The
else part of an `if` is a block inside the `if`, but what the other branch declares is not visible
in it: while the else part is open, the block of the first branch stays open and is hidden.

Main definitions: `ScopeStack.apply`, which makes one call, and `ScopeStack.visible`, the scopes in
which a name is looked up.
-/

namespace TinyGen

/-- An `if` that is not closed yet: how many scopes were open before it, and whether its else part
has been entered. -/
structure OpenIf where
  depth : Nat
  inElse : Bool
  deriving DecidableEq, Repr

/-- The open scopes and the open `if`s, the innermost ones first, and the number of the next
block. -/
structure ScopeStack where
  active : List ScopeId
  nextBlock : Nat
  ifs : List OpenIf
  deriving DecidableEq, Repr

namespace ScopeStack

/-- Change of the open scopes. -/
inductive Call where
  | enterProgram
  | enterProcedure (ident : String)
  | enterBlock
  | enterIf
  | enterElse
  | exitIf
  | exitScope
  deriving DecidableEq, Repr

/-- No scope is open, and the first block will have number 1. -/
def empty : ScopeStack := ⟨[], 1, []⟩

/-- The innermost open scope. -/
def current (s : ScopeStack) : Option ScopeId :=
  s.active.head?

/-- Number of open scopes. -/
def depth (s : ScopeStack) : Nat :=
  s.active.length

/-- Opens a scope. -/
def push (s : ScopeStack) (id : ScopeId) : ScopeStack :=
  { s with active := id :: s.active }

/-- Opens the next block. -/
def enterBlock (s : ScopeStack) : ScopeStack :=
  { s with active := .block s.nextBlock :: s.active, nextBlock := s.nextBlock + 1 }

/-- Opens the block of an `if`. -/
def enterIf (s : ScopeStack) : ScopeStack :=
  { s with ifs := ⟨s.depth, false⟩ :: s.ifs }.enterBlock

/-- Opens the block of an else part and hides the other branch of its `if`. -/
def enterElse (s : ScopeStack) : Except Misuse ScopeStack :=
  match s.ifs with
  | [] => .error .elseWithoutIf
  | last :: rest => .ok { s with ifs := { last with inElse := true } :: rest }.enterBlock

/-- Closes the innermost `if` with all scopes opened since. -/
def exitIf (s : ScopeStack) : Except Misuse ScopeStack :=
  match s.ifs with
  | [] => .error .endWithoutIf
  | last :: rest => .ok { s with active := s.active.drop (s.depth - last.depth), ifs := rest }

/-- Closes the innermost scope, if one is open. -/
def exitScope (s : ScopeStack) : ScopeStack :=
  { s with active := s.active.tail }

/-- Makes one call. -/
def apply (s : ScopeStack) : Call → Except Misuse ScopeStack
  | .enterProgram => .ok (s.push .global)
  | .enterProcedure ident => .ok (s.push (.procedure ident))
  | .enterBlock => .ok s.enterBlock
  | .enterIf => .ok s.enterIf
  | .enterElse => s.enterElse
  | .exitIf => s.exitIf
  | .exitScope => .ok s.exitScope

/-- Whether a call opens a scope, which is then the current one. -/
def Call.opens : Call → Bool
  | .exitIf => false
  | .exitScope => false
  | _ => true

/-- Whether the scope with `depth` scopes below it is the first branch of an `if` whose else part
has been entered. -/
def hides (ifs : List OpenIf) (depth : Nat) : Bool :=
  ifs.any fun i => i.inElse && i.depth = depth

/-- The scopes of `active` that are not hidden. -/
def visibleIn (ifs : List OpenIf) : (active : List ScopeId) → List ScopeId
  | [] => []
  | id :: below =>
    if hides ifs below.length then visibleIn ifs below else id :: visibleIn ifs below

/-- The scopes in which a name is looked up, the innermost one first. -/
def visible (s : ScopeStack) : List ScopeId :=
  visibleIn s.ifs s.active

end ScopeStack

/-- The change of the open scopes that an event stands for. The end of an else part closes nothing:
its block is closed with the whole `if`. -/
def Event.scopeCall? : Event → Option ScopeStack.Call
  | .enterProgram _ => some .enterProgram
  | .exitProgram => some .exitScope
  | .enterProcedure ident => some (.enterProcedure ident)
  | .exitProcedure _ => some .exitScope
  | .enterIf _ => some .enterIf
  | .exitIf => some .exitIf
  | .enterElse => some .enterElse
  | .enterWhile => some .enterBlock
  | .exitWhile => some .exitScope
  | _ => none

end TinyGen
