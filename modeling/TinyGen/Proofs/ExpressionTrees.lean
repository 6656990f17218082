import TinyGen.Proofs.Events
import TinyGen.Proofs.Uses

/-!
# The tree of an expression

`Expr.tree` is what the grammar says that an expression stands for: the factors of an expression
are joined from the left, the primaries of a factor are joined from the left, and a group stands for the
expression in it.

The builder of statement trees never sees the grammar. It is given operands and operators one at a
time, and two stacks decide what belongs together. `Expr.walk_builds_tree` says that this builds the tree
of the grammar, whatever is on the stacks before.
-/

namespace TinyGen

open ParseTree

/-- Operands joined to a first one from the left. -/
def Term.join (first : Term) (rest : List (BinOp × Term)) : Term :=
  rest.foldl (fun lhs next => .binary next.1 lhs next.2) first

namespace ParseTree

section Tree

variable (ref : String → VarRef)

mutual

/-- The tree of an expression whose names refer to `ref`. -/
def Expr.tree : Expr → Term
  | ⟨first, rest⟩ => first.tree.join (termTrees rest)

/-- The additive operators after the first factor, each with the tree of its factor. -/
def termTrees : List (AddOp × Factor) → List (BinOp × Term)
  | [] => []
  | (.add, factor) :: rest => (.add, factor.tree) :: termTrees rest
  | (.sub, factor) :: rest => (.sub, factor.tree) :: termTrees rest

/-- The tree of a factor. -/
def Factor.tree : Factor → Term
  | ⟨first, rest⟩ => first.tree.join (productTrees rest)

/-- The multiplicative operators after the first primary, each with the tree of its primary. -/
def productTrees : List (MulOp × Primary) → List (BinOp × Term)
  | [] => []
  | (.mul, primary) :: rest => (.mul, primary.tree) :: productTrees rest
  | (.div, primary) :: rest => (.div, primary.tree) :: productTrees rest

/-- The tree of a primary. A numeral stands for itself. -/
def Primary.tree : Primary → Term
  | .atom text => if Text.isNumeral text then .literal text else .var (ref text)
  | .group inner => inner.tree

end

theorem termTrees_cons (op : AddOp) (factor : Factor) (rest : List (AddOp × Factor)) :
    termTrees ref ((op, factor) :: rest) = (op.toBinOp, factor.tree ref) :: termTrees ref rest := by
  cases op <;> rfl

theorem productTrees_cons (op : MulOp) (primary : Primary) (rest : List (MulOp × Primary)) :
    productTrees ref ((op, primary) :: rest) =
      (op.toBinOp, primary.tree ref) :: productTrees ref rest := by
  cases op <;> rfl

end Tree

/-! ## Reading -/

section Reading

variable {b : Statement.Builder} {ref : String → VarRef}

mutual

/-- Where every name resolves, an expression is read as its tree. -/
theorem Expr.reading_eq_tree (expr : Expr)
    (h : ∀ ident ∈ expr.names, b.resolve ident = .ok (ref ident)) :
    expr.reading b.operand = .ok (expr.tree ref) := by
  obtain ⟨first, rest⟩ := expr
  rw [Expr.names, List.forall_mem_append] at h
  rw [Expr.reading, Factor.reading_eq_tree first h.1]
  exact termsReading_eq_tree rest h.2 _

theorem termsReading_eq_tree (rest : List (AddOp × Factor))
    (h : ∀ ident ∈ termNames rest, b.resolve ident = .ok (ref ident)) (value : Term) :
    termsReading b.operand value rest = .ok (value.join (termTrees ref rest)) := by
  match rest with
  | [] => rfl
  | (op, factor) :: rest =>
    rw [termNames, List.forall_mem_append] at h
    rw [termsReading_cons, termTrees_cons, Factor.reading_eq_tree factor h.1]
    exact termsReading_eq_tree rest h.2 _

theorem Factor.reading_eq_tree (factor : Factor)
    (h : ∀ ident ∈ factor.names, b.resolve ident = .ok (ref ident)) :
    factor.reading b.operand = .ok (factor.tree ref) := by
  obtain ⟨first, rest⟩ := factor
  rw [Factor.names, List.forall_mem_append] at h
  rw [Factor.reading, Primary.reading_eq_tree first h.1]
  exact productsReading_eq_tree rest h.2 _

theorem productsReading_eq_tree (rest : List (MulOp × Primary))
    (h : ∀ ident ∈ productNames rest, b.resolve ident = .ok (ref ident)) (value : Term) :
    productsReading b.operand value rest = .ok (value.join (productTrees ref rest)) := by
  match rest with
  | [] => rfl
  | (op, primary) :: rest =>
    rw [productNames, List.forall_mem_append] at h
    rw [productsReading_cons, productTrees_cons, Primary.reading_eq_tree primary h.1]
    exact productsReading_eq_tree rest h.2 _

theorem Primary.reading_eq_tree (primary : Primary)
    (h : ∀ ident ∈ primary.names, b.resolve ident = .ok (ref ident)) :
    primary.reading b.operand = .ok (primary.tree ref) := by
  match primary with
  | .group inner =>
    rw [Primary.names] at h
    rw [Primary.reading, Primary.tree, Expr.reading_eq_tree inner h]
  | .atom text =>
    rw [Primary.names] at h
    rw [Primary.reading, Primary.tree, Statement.Builder.operand]
    by_cases hnum : Text.isNumeral text
    · rw [if_pos hnum, if_pos hnum]
    · rw [if_neg hnum] at h
      rw [if_neg hnum, if_neg hnum, h text (List.mem_singleton.mpr rfl)]
      rfl

end

end Reading

/-! ## The walk -/

open Statement.Builder OpenAssign

/-- **The stacks build the tree of the grammar.** As the value of an assignment, an expression gives one
statement with its tree, and no assignment is open after it. In parentheses, inside an assignment that
is open, it gives one operand, its tree, and whatever else is on the stacks stays there. -/
theorem Expr.walk_builds_tree (expr : Expr) (b : Statement.Builder) (ref : String → VarRef)
    (h : ∀ ident ∈ expr.names, b.resolve ident = .ok (ref ident)) :
    (∀ target v, b.resolve target = .ok v →
      ((b.raise (.enterAssign target)).andThen (expr.walk raise)).andThen
          (·.raise (.exitAssign target)) =
        .ok { b with statements := b.statements ++ [.assign v (expr.tree ref)], assign := none }) ∧
    ∀ a, b.assign = some a →
      (Primary.group expr).walk raise b =
        .ok { b with assign := some { a with operands := expr.tree ref :: a.operands } } := by
  have hread := Expr.reading_eq_tree expr h
  constructor
  · intro target v hv
    have henter : b.raise (.enterAssign target) = .ok (b.editing ⟨v, [], []⟩) := by
      show b.enterAssign target = _
      rw [enterAssign, hv]
      rfl
    have hwalk := Expr.walk_reading expr b (a := ⟨v, [], []⟩) (blocked_nil 1)
    rw [hread] at hwalk
    obtain ⟨_, hwalk, a', rfl, ha⟩ := hwalk
    rw [henter, Step.ok_andThen, Step.result_eq_ok_iff.mp hwalk, Step.ok_andThen]
    show (b.editing a').exitAssign = _
    simp only [exitAssign, editing, ha.finish]
    rfl
  · intro a ha
    have hb : b = b.editing a := by rw [editing, ← ha]
    have hwalk := Primary.walk_reading (.group expr) b a
    rw [Primary.reading, hread, ← hb] at hwalk
    obtain ⟨_, hwalk, rfl⟩ := hwalk
    exact Step.result_eq_ok_iff.mp hwalk

/-- `a - 1 / 4 - (b + 2) * 3` as a value, and in parentheses after `7 *`. -/
theorem Expr.walk_builds_tree_difference :
    let atom (text : String) : Factor := ⟨.atom text, []⟩
    let sum : Expr := ⟨atom "b", [(.add, atom "2")]⟩
    let expr : Expr := ⟨atom "a", [(.sub, ⟨.atom "1", [(.div, .atom "4")]⟩),
      (.sub, ⟨.group sum, [(.mul, .atom "3")]⟩)]⟩
    let table : ScopeTable := ⟨[(.global, [⟨"a", .num .int⟩, ⟨"b", .num .float⟩])]⟩
    let b : Statement.Builder := ⟨table, ⟨[.global], 1, []⟩, [], none⟩
    let tree : Term := .binary .sub
      (.binary .sub (.var ⟨"a", .int⟩) (.binary .div (.literal "1") (.literal "4")))
      (.binary .mul (.binary .add (.var ⟨"b", .float⟩) (.literal "2")) (.literal "3"))
    ((b.raise (.enterAssign "a")).andThen (expr.walk raise)).andThen (·.raise (.exitAssign "a")) =
      .ok { b with statements := [.assign ⟨"a", .int⟩ tree] } ∧
    (Primary.group expr).walk raise
        { b with assign := some ⟨⟨"a", .int⟩, [.literal "7"], [.operator .mul]⟩ } =
      .ok { b with assign := some ⟨⟨"a", .int⟩, [tree, .literal "7"], [.operator .mul]⟩ } := by
  intro atom sum expr table b tree
  have hnames : expr.names = ["a", "b"] := rfl
  have h : ∀ ident ∈ expr.names, b.resolve ident =
      .ok (if ident = "a" then ⟨"a", .int⟩ else ⟨"b", .float⟩) := by
    rw [hnames]
    simp only [List.mem_cons, List.not_mem_nil, or_false, forall_eq_or_imp, forall_eq]
    exact ⟨rfl, rfl⟩
  exact ⟨(expr.walk_builds_tree b _ h).1 "a" ⟨"a", .int⟩ rfl,
    (expr.walk_builds_tree { b with assign := some ⟨⟨"a", .int⟩, [.literal "7"], [.operator .mul]⟩ } _
      h).2 _ rfl⟩

end ParseTree

end TinyGen
