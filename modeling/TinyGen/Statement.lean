import TinyGen.ParseTree

/-!
# Statement trees

One tree for each statement that the later stages handle: an assignment with the tree of its value,
a string declaration, a read, or a write. Names carry the type they were resolved to.

A value is listed in post-order, operands before operators. The listing is produced one node at a
time from an explicit stack (`PostOrder.next?`), so that the nesting of a value does not matter.
-/

namespace TinyGen

open ParseTree

/-- Operator of a value. -/
inductive BinOp where
  | add
  | sub
  | mul
  | div
  deriving DecidableEq, Repr

/-- A use of a name, with the type it resolves to. -/
structure VarRef where
  ident : String
  ty : Ty
  deriving DecidableEq, Repr

/-- Value of an assignment. -/
inductive Term where
  | literal (text : String)
  | var (ref : VarRef)
  | binary (op : BinOp) (lhs rhs : Term)
  deriving DecidableEq, Repr

/-- Statement with its names resolved. -/
inductive Statement where
  | assign (target : VarRef) (value : Term)
  | stringDecl (ident literal : String)
  | read (vars : List VarRef)
  | write (vars : List VarRef)
  deriving DecidableEq, Repr

namespace BinOp

/-- Whether the operator belongs to the additive tier. -/
def isAdditive : BinOp → Bool
  | .add => true
  | .sub => true
  | .mul => false
  | .div => false

/-- How tightly the operator binds. -/
def precedence (op : BinOp) : Nat :=
  if op.isAdditive then 1 else 2

/-- Spelling of the operator. -/
def text : BinOp → String
  | .add => "+"
  | .sub => "-"
  | .mul => "*"
  | .div => "/"

end BinOp

/-- The operator of a value for an operator of the additive tier. -/
def ParseTree.AddOp.toBinOp : AddOp → BinOp
  | .add => .add
  | .sub => .sub

/-- The operator of a value for an operator of the multiplicative tier. -/
def ParseTree.MulOp.toBinOp : MulOp → BinOp
  | .mul => .mul
  | .div => .div

/-- Text of a use in a listing. -/
def VarRef.text (v : VarRef) : String :=
  "VARREF " ++ v.ident ++ " " ++ v.ty.name

namespace Term

/-- Number of nodes. -/
def size : Term → Nat
  | .literal _ => 1
  | .var _ => 1
  | .binary _ lhs rhs => lhs.size + rhs.size + 1

/-- Text of the root in a listing. -/
def label : Term → String
  | .literal text => "CONSTANT " ++ text
  | .var v => v.text
  | .binary op _ _ => (if op.isAdditive then "ADDOP " else "MULOP ") ++ op.text

end Term

/-! ## Post-order -/

/-- Nodes still to be listed, the next one first. An expanded node has its operands before it on the
stack, or listed already. -/
structure PostOrder where
  stack : List (Term × Bool)
  deriving DecidableEq, Repr

namespace PostOrder

/-- Goes down to the leftmost leaf of a node that is not expanded, which is listed next. -/
def descend : Term → List (Term × Bool) → Term × PostOrder
  | .binary op lhs rhs, stack => descend lhs ((rhs, false) :: (.binary op lhs rhs, true) :: stack)
  | leaf, stack => (leaf, ⟨stack⟩)

/-- The next node and what is left after it. -/
def next? (order : PostOrder) : Option (Term × PostOrder) :=
  match order.stack with
  | [] => none
  | (node, true) :: stack => some (node, ⟨stack⟩)
  | (node, false) :: stack => some (descend node stack)

/-- Number of nodes that a stack entry still lists. -/
def entryWeight : Term × Bool → Nat
  | (node, false) => node.size
  | (_, true) => 1

/-- Number of nodes still to be listed. -/
def weight (order : PostOrder) : Nat :=
  order.stack.foldr (entryWeight · + ·) 0

theorem weight_descend (node : Term) (stack : List (Term × Bool)) :
    (descend node stack).2.weight + 1 = node.size + (PostOrder.mk stack).weight := by
  induction node generalizing stack with
  | literal text => simp [descend, Term.size, weight]; omega
  | var ref => simp [descend, Term.size, weight]; omega
  | binary op lhs rhs ihl _ =>
    rw [descend, ihl]
    simp [weight, entryWeight, Term.size]
    omega

theorem weight_next? {order rest : PostOrder} {node : Term}
    (h : order.next? = some (node, rest)) : rest.weight + 1 = order.weight := by
  obtain ⟨_ | ⟨⟨top, _ | _⟩, stack⟩⟩ := order
  · simp [next?] at h
  · simp only [next?, Option.some.injEq] at h
    have := weight_descend top stack
    rw [h] at this
    simpa [weight, entryWeight] using this
  · simp only [next?, Option.some.injEq, Prod.mk.injEq] at h
    obtain ⟨-, rfl⟩ := h
    simp [weight, entryWeight]
    omega

/-- The nodes still to be listed. -/
def toList (order : PostOrder) : List Term :=
  match h : order.next? with
  | none => []
  | some (node, rest) =>
    have := weight_next? h
    node :: rest.toList
termination_by order.weight

end PostOrder

/-- The nodes of a value in post-order. -/
def Term.postOrder (t : Term) : List Term :=
  (PostOrder.mk [(t, false)]).toList

namespace Statement

/-- Names of a read or a write. -/
def identList (vars : List VarRef) : String :=
  ",".intercalate (vars.map (·.ident))

/-- Line of a statement in a listing. -/
def text : Statement → String
  | .assign target value =>
    "[" ++ ", ".intercalate (target.text :: value.postOrder.map Term.label ++ [":="]) ++ "]"
  | .stringDecl ident literal => "[STRING " ++ ident ++ " " ++ literal ++ "]"
  | .read vars => "[READ " ++ identList vars ++ "]"
  | .write vars => "[WRITE " ++ identList vars ++ "]"

end Statement

end TinyGen
