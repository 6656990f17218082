import TinyGen.Proofs.Walk
import TinyGen.Statement.Builder

/-!
# The value that an expression is read as

`Expr.reading` reads an expression as a value by recursion: multiplicative operators are applied
within factors, additive ones between them, both from the left, and a group is read on its own.

`Expr.walk_reading` says that walking over the expression in an open assignment builds this value. The
operators that still wait at its end are settled by whatever is applied next: `Settled p a' a t` says
that applying the operators of precedence `p` or more in `a'` is the same as applying them in `a` with
the operand `t` on top.
-/

namespace TinyGen

namespace ParseTree

variable (operand : String → Except Error Term)

mutual

/-- The value of an expression, where `operand` gives those of its atoms. -/
def Expr.reading : Expr → Except Error Term
  | ⟨first, rest⟩ => do
    let value ← first.reading
    termsReading value rest

/-- Applies additive operators to a value, one after another. -/
def termsReading (value : Term) : List (AddOp × Factor) → Except Error Term
  | [] => .ok value
  | (.add, factor) :: rest => do
    let rhs ← factor.reading
    termsReading (.binary .add value rhs) rest
  | (.sub, factor) :: rest => do
    let rhs ← factor.reading
    termsReading (.binary .sub value rhs) rest

/-- The value of a factor. -/
def Factor.reading : Factor → Except Error Term
  | ⟨first, rest⟩ => do
    let value ← first.reading
    productsReading value rest

/-- Applies multiplicative operators to a value, one after another. -/
def productsReading (value : Term) : List (MulOp × Primary) → Except Error Term
  | [] => .ok value
  | (.mul, primary) :: rest => do
    let rhs ← primary.reading
    productsReading (.binary .mul value rhs) rest
  | (.div, primary) :: rest => do
    let rhs ← primary.reading
    productsReading (.binary .div value rhs) rest

/-- The value of a primary. -/
def Primary.reading : Primary → Except Error Term
  | .atom text => operand text
  | .group inner => inner.reading

end

/-- What each additive operator does with the next factor, for both at once. -/
theorem termsReading_cons (value : Term) (op : AddOp) (factor : Factor)
    (rest : List (AddOp × Factor)) :
    termsReading operand value ((op, factor) :: rest) =
      factor.reading operand >>= fun rhs =>
        termsReading operand (.binary op.toBinOp value rhs) rest := by
  cases op <;> rfl

/-- What each multiplicative operator does with the next primary, for both at once. -/
theorem productsReading_cons (value : Term) (op : MulOp) (primary : Primary)
    (rest : List (MulOp × Primary)) :
    productsReading operand value ((op, primary) :: rest) =
      primary.reading operand >>= fun rhs =>
        productsReading operand (.binary op.toBinOp value rhs) rest := by
  cases op <;> rfl

/-- Sums bind least. -/
theorem AddOp.precedence_toBinOp (op : AddOp) : op.toBinOp.precedence = 1 := by
  cases op <;> rfl

/-- Products bind most. -/
theorem MulOp.precedence_toBinOp (op : MulOp) : op.toBinOp.precedence = 2 := by
  cases op <;> rfl

end ParseTree

/-! ## Waiting operators -/

namespace OpenAssign

variable {a a' : OpenAssign} {t u : Term} {op : BinOp} {p q : Nat}

/-- No operator of precedence `p` or more is on top. -/
def Blocked (p : Nat) (pending : List Pending) : Prop :=
  ∀ op rest, pending = .operator op :: rest → op.precedence < p

theorem blocked_nil (p : Nat) : Blocked p [] := by
  intro op rest h
  cases h

theorem blocked_group (p : Nat) (pending : List Pending) : Blocked p (.group :: pending) := by
  intro op rest h
  cases h

theorem blocked_operator (h : op.precedence < p) (pending : List Pending) :
    Blocked p (.operator op :: pending) := by
  intro op' rest he
  cases he
  exact h

/-- What stops an operator stops those that bind tighter. -/
theorem Blocked.mono {pending : List Pending} (h : Blocked p pending) (hpq : p ≤ q) :
    Blocked q pending :=
  fun op rest he => Nat.lt_of_lt_of_le (h op rest he) hpq

/-- Nothing is reduced past what stops the operator. -/
theorem reduce_of_blocked {pending : List Pending} (h : Blocked p pending) (operands : List Term) :
    reduce (p ≤ ·.precedence) operands pending = .ok (operands, pending) := by
  cases pending with
  | nil => rfl
  | cons top rest =>
    cases top with
    | group => rfl
    | operator op =>
      have hp : ¬p ≤ op.precedence := Nat.not_le.mpr (h op rest rfl)
      simp [reduce, hp]

/-- In `a'` an operand of `a` is still spread over waiting operators, all of precedence `p` or more:
once these are applied, it is `t`. -/
structure Settled (p : Nat) (a' a : OpenAssign) (t : Term) : Prop where
  target : a'.target = a.target
  reduce : ∀ select : BinOp → Bool, (∀ op, p ≤ op.precedence → select op = true) →
    OpenAssign.reduce select a'.operands a'.pending =
      OpenAssign.reduce select (t :: a.operands) a.pending

theorem settled_pushOperand (p : Nat) (a : OpenAssign) (t : Term) :
    Settled p (a.pushOperand t) a t :=
  ⟨rfl, fun _ _ => rfl⟩

theorem Settled.mono (h : Settled q a' a t) (hpq : p ≤ q) : Settled p a' a t :=
  ⟨h.target, fun select hs => h.reduce select fun op hop => hs op (Nat.le_trans hpq hop)⟩

/-- An operator that follows finds the operand as a whole. -/
theorem Settled.pushOperator (h : Settled op.precedence a' a t)
    (hb : Blocked op.precedence a.pending) :
    a'.pushOperator op = .ok ⟨a.target, t :: a.operands, .operator op :: a.pending⟩ := by
  have hr := h.reduce (op.precedence ≤ ·.precedence) fun op' hop => decide_eq_true hop
  rw [reduce_of_blocked hb] at hr
  rw [OpenAssign.pushOperator, hr, ← h.target]
  rfl

/-- The operand after an operator completes a value. -/
theorem Settled.binary (hp : p ≤ op.precedence) (hpq : p ≤ q)
    (h : Settled q a' ⟨a.target, t :: a.operands, .operator op :: a.pending⟩ u) :
    Settled p a' a (.binary op t u) := by
  refine ⟨h.target, fun select hs => ?_⟩
  rw [(h.mono hpq).reduce select hs, OpenAssign.reduce, if_pos (hs op hp)]
  rfl

/-- A group that is closed leaves its value as one operand. -/
theorem Settled.closeGroup (h : Settled p a' a.openGroup t) :
    a'.closeGroup = .ok (a.pushOperand t) := by
  have hr := h.reduce (fun _ => true) fun _ _ => rfl
  rw [OpenAssign.closeGroup, hr]
  show Except.ok (OpenAssign.mk a'.target _ _) = _
  rw [h.target]
  rfl

/-- The value of the whole expression is assigned. -/
theorem Settled.finish {v : VarRef} (h : Settled p a' ⟨v, [], []⟩ t) :
    a'.finish = .ok (.assign v t) := by
  have hr := h.reduce (fun _ => true) fun _ _ => rfl
  rw [OpenAssign.finish, hr]
  show Except.ok (Statement.assign a'.target t) = _
  rw [h.target]

end OpenAssign

/-! ## The walk over an expression -/

namespace Statement.Builder

/-- The builder with `a` as its open assignment. -/
def editing (b : Builder) (a : OpenAssign) : Builder :=
  { b with assign := some a }

/-- The builder works on an assignment in which `t` has been read after `a`, up to waiting operators
of precedence `p` or more. -/
def Read (b : Builder) (p : Nat) (a : OpenAssign) (t : Term) (b' : Builder) : Prop :=
  ∃ a', b' = b.editing a' ∧ a'.Settled p a t

variable {b : Builder} {a a' : OpenAssign}

theorem modifyAssign_editing (f : OpenAssign → Except Misuse OpenAssign) (h : f a = .ok a') :
    (b.editing a).modifyAssign f = .ok (b.editing a') := by
  simp only [modifyAssign, editing, h]

/-- An atom is pushed as an operand, or its name is not resolved. -/
theorem raise_enterAtom (b : Builder) (a : OpenAssign) (text : String) :
    ((b.editing a).raise (.enterAtom text)).result =
      Fault.lift (b.operand text) fun t => b.editing (a.pushOperand t) := by
  have hop : (b.editing a).operand text = b.operand text := rfl
  show ((b.editing a).enterAtom text).result = _
  simp only [enterAtom, hop]
  cases b.operand text <;> rfl

end Statement.Builder

namespace ParseTree

open Statement.Builder OpenAssign

mutual

/-- Walking over an expression in an open assignment reads its value. -/
theorem Expr.walk_reading (expr : Expr) (b : Statement.Builder) {a : OpenAssign}
    (h : Blocked 1 a.pending) :
    (expr.walk raise (b.editing a)).Yields (expr.reading b.operand) (b.Read 1 a) := by
  obtain ⟨first, rest⟩ := expr
  rw [Expr.walk, Expr.reading]
  refine (Factor.walk_reading first b (h.mono (Nat.le_succ 1))).andThen ?_
  rintro t _ ⟨a', rfl, ha⟩
  exact walkTerms_reading rest b h (ha.mono (Nat.le_succ 1))

/-- Further factors are read from left to right, onto the value so far. -/
theorem walkTerms_reading (rest : List (AddOp × Factor)) (b : Statement.Builder)
    {a a' : OpenAssign} {t : Term} (h : Blocked 1 a.pending) (ha : a'.Settled 1 a t) :
    (walkTerms raise rest (b.editing a')).Yields (termsReading b.operand t rest) (b.Read 1 a) := by
  match rest with
  | [] => exact ⟨_, rfl, a', rfl, ha⟩
  | (op, factor) :: rest =>
    have hop := op.precedence_toBinOp
    have hpush : (b.editing a').raise (.addOp op) =
        .ok (b.editing ⟨a.target, t :: a.operands, .operator op.toBinOp :: a.pending⟩) :=
      modifyAssign_editing (·.pushOperator op.toBinOp) (Settled.pushOperator (hop ▸ ha) (hop ▸ h))
    rw [walkTerms, termsReading_cons, hpush, Step.ok_andThen]
    have hb : Blocked 2 (.operator op.toBinOp :: a.pending) :=
      blocked_operator (by omega) a.pending
    refine (Factor.walk_reading factor b hb).andThen ?_
    rintro u _ ⟨a'', rfl, hu⟩
    exact walkTerms_reading rest b h (hu.binary (by omega) (Nat.le_succ 1))

/-- A factor is read as one value, if no product is left open before it. -/
theorem Factor.walk_reading (factor : Factor) (b : Statement.Builder) {a : OpenAssign}
    (h : Blocked 2 a.pending) :
    (factor.walk raise (b.editing a)).Yields (factor.reading b.operand) (b.Read 2 a) := by
  obtain ⟨first, rest⟩ := factor
  rw [Factor.walk, Factor.reading]
  refine (Primary.walk_reading first b a).andThen ?_
  rintro t _ rfl
  exact walkProducts_reading rest b h (settled_pushOperand 2 a t)

/-- Further primaries are read from left to right, onto the value so far. -/
theorem walkProducts_reading (rest : List (MulOp × Primary)) (b : Statement.Builder)
    {a a' : OpenAssign} {t : Term} (h : Blocked 2 a.pending) (ha : a'.Settled 2 a t) :
    (walkProducts raise rest (b.editing a')).Yields (productsReading b.operand t rest)
      (b.Read 2 a) := by
  match rest with
  | [] => exact ⟨_, rfl, a', rfl, ha⟩
  | (op, primary) :: rest =>
    have hop := op.precedence_toBinOp
    have hpush : (b.editing a').raise (.mulOp op) =
        .ok (b.editing ⟨a.target, t :: a.operands, .operator op.toBinOp :: a.pending⟩) :=
      modifyAssign_editing (·.pushOperator op.toBinOp) (Settled.pushOperator (hop ▸ ha) (hop ▸ h))
    rw [walkProducts, productsReading_cons, hpush, Step.ok_andThen]
    refine (Primary.walk_reading primary b _).andThen ?_
    rintro u _ rfl
    have hu := settled_pushOperand 2 ⟨a.target, t :: a.operands, .operator op.toBinOp :: a.pending⟩ u
    exact walkProducts_reading rest b h (hu.binary (by omega) (Nat.le_refl 2))

/-- A primary leaves nothing waiting. -/
theorem Primary.walk_reading (primary : Primary) (b : Statement.Builder) (a : OpenAssign) :
    (primary.walk raise (b.editing a)).Yields (primary.reading b.operand)
      fun t b' => b' = b.editing (a.pushOperand t) := by
  match primary with
  | .atom text =>
    rw [Primary.walk, Primary.reading]
    refine Step.Yields.of_lift ?_ fun _ => rfl
    exact Step.result_andThen_ok (raise_enterAtom b a text) fun _ => rfl
  | .group inner =>
    rw [Primary.walk, Primary.reading]
    refine Step.Yields.of_lift ?_ fun _ => rfl
    have hopen : (b.editing a).raise (.enterGroup inner) = .ok (b.editing a.openGroup) := rfl
    rw [hopen, Step.ok_andThen]
    refine (Expr.walk_reading inner b (blocked_group 1 a.pending)).result_andThen ?_
    rintro t _ ⟨a', rfl, ha⟩
    exact modifyAssign_editing _ ha.closeGroup

end

end ParseTree

end TinyGen
