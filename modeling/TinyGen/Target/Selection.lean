import TinyGen.Fault
import TinyGen.ScopeTable
import TinyGen.Target
import TinyGen.ThreeAddress

/-!
# From three-address code to target programs

Every declared name gets storage. Temporaries become registers, numbered in the order in which they
first occur, and an operation becomes a move of its left operand into the register of its result and
an update of that register by the right operand.

Main definition: `Target.Program.ofCode`.
-/

namespace TinyGen.Target

open ThreeAddress (Temp Code)

/-- Registers given to temporaries so far, the latest first, and their number. -/
structure Registers where
  assigned : List (Temp × Register)
  count : Nat
  deriving DecidableEq, Repr

namespace Registers

/-- No register is in use. -/
def empty : Registers := ⟨[], 0⟩

/-- The register of a temporary; a temporary without one gets the next. -/
def assign (rs : Registers) (t : Temp) : Register × Registers :=
  match rs.assigned.lookup t with
  | some r => (r, rs)
  | none =>
    let r : Register := ⟨rs.count + 1⟩
    (r, ⟨(t, r) :: rs.assigned, rs.count + 1⟩)

/-- The target operand of an operand. -/
def operand (rs : Registers) : ThreeAddress.Operand → Operand × Registers
  | .temp t =>
    let (r, rs) := rs.assign t
    (.register r, rs)
  | .var ident => (.var ident, rs)
  | .literal text => (.immediate text, rs)

end Registers

/-- Declaration of a symbol's storage. -/
def declaration (s : Symbol) : Instr :=
  match s.shape with
  | .num _ => .var s.ident
  | .str literal => .str s.ident literal

/-- Storage declarations of all declared names. -/
def header (table : ScopeTable) : List Instr :=
  table.storage.map declaration

/-- Target instructions of one instruction. -/
def select (rs : Registers) : ThreeAddress.Instr → Except Misuse (List Instr × Registers)
  | .label _ => .ok ([], rs)
  | .link => .ok ([], rs)
  | .ret => .ok ([], rs)
  | .store _ src dst =>
    let (src, rs) := rs.operand src
    let (dst, rs) := rs.operand dst
    .ok ([.move src dst], rs)
  | .binary op ty lhs rhs dst =>
    let (lhs, rs) := rs.operand lhs
    let (rhs, rs) := rs.operand rhs
    let (dst, rs) := rs.assign dst
    match ty.toNum? with
    | none => .error .stringArithmetic
    | some ty => .ok ([.move lhs (.register dst), .arith op ty rhs dst], rs)
  | .read ty ident =>
    match ty.toNum? with
    | none => .error .stringRead
    | some ty => .ok ([.read ty ident], rs)
  | .write ty ident => .ok ([.write ty ident], rs)

/-- Target instructions of instructions, one after another. -/
def selectAll (rs : Registers) : List ThreeAddress.Instr → Except Misuse (List Instr × Registers)
  | [] => .ok ([], rs)
  | instr :: rest => do
    let (first, rs) ← select rs instr
    let (more, rs) ← selectAll rs rest
    return (first ++ more, rs)

/-- Target program of three-address code over a scope table. -/
def Program.ofCode (table : ScopeTable) (code : Code) : Except Misuse Program := do
  let (body, rs) ← selectAll .empty code.instrs
  return ⟨header table ++ body ++ [.halt], rs.count⟩

end TinyGen.Target
