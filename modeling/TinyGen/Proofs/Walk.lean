import TinyGen.Fault
import TinyGen.ParseTree.Events
import TinyGen.ParseTree.Walk

/-!
# Reasoning about walks

A stage is compared with a definition by recursion on the parse tree. The recursive definition gives
an `Except Error`, the walk a `Step` with the state of the stage; `Fault.lift` says how the first
determines the result of the second, and `Step.result_andThen_lift` composes such comparisons along a
walk. Where the state is not a function of the value, `Step.Yields` relates the two.

`walkDecls_eq_run`: declarations are delivered as their events, one after another.
`Expr.walk_of_inert`: a stage that ignores the events of expressions is not changed by one.
`Stmt.blockCount`: how many blocks a statement opens.
-/

namespace TinyGen

/-- What a stage ends with when its work gives `x`: the error, or the state for the value. -/
def Fault.lift {α σ : Type} (x : Except Error α) (state : α → σ) : Except Fault σ :=
  match x with
  | .error e => .error (.error e)
  | .ok a => .ok (state a)

namespace Fault

variable {α β σ τ : Type}

theorem lift_bind_pure (x : Except Error α) (h : α → β) (state : β → σ) :
    lift (x >>= fun a => pure (h a)) state = lift x fun a => state (h a) := by
  cases x <;> rfl

/-- A lifted computation fails only with an error of its own, never by misuse. -/
theorem lift_eq_error_iff {x : Except Error α} {state : α → σ} {fault : Fault} :
    lift x state = .error fault ↔ ∃ e, x = .error e ∧ fault = .error e := by
  cases x with
  | error e => simp [lift, eq_comm]
  | ok a => simp [lift]

theorem map_lift (x : Except Error α) (state : α → σ) (h : σ → τ) :
    (lift x state).map h = lift x fun a => h (state a) := by
  cases x <;> rfl

end Fault

namespace Step

variable {α β σ ε : Type}

/-- After a step that succeeds, only what comes next counts. -/
theorem andThen_of_ok {step : Step ε σ} {s : σ} (h : step.result = .ok s) (next : σ → Step ε σ) :
    step.andThen next = next s := by
  obtain ⟨s', _ | fault⟩ := step
  · cases h; rfl
  · cases h

/-- After a step that fails, nothing comes next. -/
theorem result_andThen_error {step : Step ε σ} {fault : ε} (h : step.result = .error fault)
    (next : σ → Step ε σ) : (step.andThen next).result = .error fault := by
  obtain ⟨s', _ | fault'⟩ := step
  · cases h
  · exact h

/-- Two parts of a walk, each compared with what it stands for. -/
theorem result_andThen_lift {step : Step Fault σ} {next : σ → Step Fault σ} {x : Except Error α}
    {y : α → Except Error β} {state : α → σ} {final : β → σ}
    (h : step.result = Fault.lift x state)
    (hn : ∀ a, (next (state a)).result = Fault.lift (y a) final) :
    (step.andThen next).result = Fault.lift (x >>= y) final := by
  cases x with
  | error e => exact result_andThen_error h next
  | ok a =>
    rw [andThen_of_ok h, hn]
    rfl

/-- A part of a walk that is followed by one that never stops. -/
theorem result_andThen_ok {step : Step Fault σ} {next : σ → Step Fault σ} {x : Except Error α}
    {state final : α → σ} (h : step.result = Fault.lift x state)
    (hn : ∀ a, next (state a) = .ok (final a)) :
    (step.andThen next).result = Fault.lift x final := by
  cases x with
  | error e => exact result_andThen_error h next
  | ok a =>
    rw [andThen_of_ok h, hn]
    rfl

/-- The step stops with the error of `x`, or it goes on with a state that `R` relates to the value of
`x`. It is the comparison to make where the value does not determine the state. -/
def Yields (step : Step Fault σ) (x : Except Error α) (R : α → σ → Prop) : Prop :=
  match x with
  | .error e => step.result = .error (.error e)
  | .ok a => ∃ s, step.result = .ok s ∧ R a s

/-- Steps yield what their computations give one after the other. -/
theorem Yields.andThen {step : Step Fault σ} {next : σ → Step Fault σ} {x : Except Error α}
    {y : α → Except Error β} {R : α → σ → Prop} {Q : β → σ → Prop} (h : step.Yields x R)
    (hn : ∀ a s, R a s → (next s).Yields (y a) Q) : (step.andThen next).Yields (x >>= y) Q := by
  cases x with
  | error e => exact result_andThen_error h next
  | ok a =>
    obtain ⟨s, hs, hr⟩ := h
    rw [andThen_of_ok hs]
    exact hn a s hr

/-- The state is determined again after `next`. -/
theorem Yields.result_andThen {step : Step Fault σ} {next : σ → Step Fault σ} {x : Except Error α}
    {R : α → σ → Prop} {final : α → σ} (h : step.Yields x R)
    (hn : ∀ a s, R a s → next s = .ok (final a)) :
    (step.andThen next).result = Fault.lift x final := by
  cases x with
  | error e => exact result_andThen_error h next
  | ok a =>
    obtain ⟨s, hs, hr⟩ := h
    rw [andThen_of_ok hs, hn a s hr]
    rfl

theorem Yields.of_lift {step : Step Fault σ} {x : Except Error α} {state : α → σ} {R : α → σ → Prop}
    (h : step.result = Fault.lift x state) (hr : ∀ a, R a (state a)) : step.Yields x R := by
  cases x with
  | error e => exact h
  | ok a => exact ⟨state a, h, hr a⟩

/-- Events are handled in their order, up to the first that fails. -/
theorem run_append (visit : σ → Event → Step ε σ) (a b : List Event) (s : σ) :
    run visit (a ++ b) s = (run visit a s).andThen (run visit b) := by
  induction a generalizing s with
  | nil => rfl
  | cons event rest ih =>
    rw [List.cons_append, run, run, andThen_assoc]
    congr 1
    funext s'
    exact ih s'

end Step

/-! ## Declarations -/

namespace ParseTree

variable {ε σ : Type} (visit : σ → Event → Step ε σ)

theorem walkDecls_cons (decl : Decl) (rest : List Decl) (s : σ) :
    walkDecls visit (decl :: rest) s = (visit s decl.event).andThen (walkDecls visit rest) := by
  cases decl <;> rfl

/-- Walking declarations is handling an event for each. -/
theorem walkDecls_eq_run (decls : List Decl) :
    walkDecls visit decls = Step.run visit (decls.map Decl.event) := by
  induction decls with
  | nil => rfl
  | cons decl rest ih =>
    funext s
    rw [walkDecls_cons, ih]
    rfl

/-- Walking parameters is handling an event for each. -/
theorem walkParams_eq_run (params : List Param) :
    walkParams visit params = Step.run visit (paramEvents params) := by
  funext s
  cases params with
  | nil => rfl
  | cons param rest =>
    show visit s _ = (visit s _).andThen .ok
    rcases visit s (.paramDecls (param :: rest)) with ⟨s', _ | fault⟩ <;> rfl

end ParseTree

/-! ## Events of expressions -/

/-- Whether an event belongs to an expression. -/
def Event.inExpr : Event → Bool
  | .addOp _ => true
  | .mulOp _ => true
  | .enterAtom _ => true
  | .exitAtom _ => true
  | .enterGroup _ => true
  | .exitGroup _ => true
  | _ => false

namespace ParseTree

section Inert

variable {ε σ : Type}

/-- The stage ignores the events of expressions in state `s`. -/
def Inert (visit : σ → Event → Step ε σ) (s : σ) : Prop :=
  ∀ e : Event, e.inExpr = true → visit s e = .ok s

variable {visit : σ → Event → Step ε σ} {s : σ}

mutual

/-- A stage that ignores the events of expressions is not changed by an expression. -/
theorem Expr.walk_of_inert (h : Inert visit s) (expr : Expr) : expr.walk visit s = .ok s := by
  obtain ⟨first, rest⟩ := expr
  rw [Expr.walk, Factor.walk_of_inert h first]
  exact walkTerms_of_inert h rest

theorem walkTerms_of_inert (h : Inert visit s) (rest : List (AddOp × Factor)) :
    walkTerms visit rest s = .ok s := by
  match rest with
  | [] => rfl
  | (op, factor) :: rest =>
    rw [walkTerms, h _ rfl, Step.ok_andThen, Factor.walk_of_inert h factor]
    exact walkTerms_of_inert h rest

theorem Factor.walk_of_inert (h : Inert visit s) (factor : Factor) :
    factor.walk visit s = .ok s := by
  obtain ⟨first, rest⟩ := factor
  rw [Factor.walk, Primary.walk_of_inert h first]
  exact walkProducts_of_inert h rest

theorem walkProducts_of_inert (h : Inert visit s) (rest : List (MulOp × Primary)) :
    walkProducts visit rest s = .ok s := by
  match rest with
  | [] => rfl
  | (op, primary) :: rest =>
    rw [walkProducts, h _ rfl, Step.ok_andThen, Primary.walk_of_inert h primary]
    exact walkProducts_of_inert h rest

theorem Primary.walk_of_inert (h : Inert visit s) (primary : Primary) :
    primary.walk visit s = .ok s := by
  match primary with
  | .atom text =>
    rw [Primary.walk, h _ rfl, Step.ok_andThen]
    exact h _ rfl
  | .group inner =>
    rw [Primary.walk, h _ rfl, Step.ok_andThen, Expr.walk_of_inert h inner, Step.ok_andThen]
    exact h _ rfl

end

theorem Cond.walk_of_inert (h : Inert visit s) (cond : Cond) : cond.walk visit s = .ok s := by
  rw [Cond.walk, Expr.walk_of_inert h, Step.ok_andThen]
  exact Expr.walk_of_inert h cond.rhs

end Inert

/-! ## Blocks -/

mutual

/-- Number of blocks that a statement opens. -/
def Stmt.blockCount : Stmt → Nat
  | .assign _ _ => 0
  | .read _ => 0
  | .write _ => 0
  | .return _ => 0
  | .ifThen _ _ body elsePart => 1 + stmtBlocks body + elseBlocks elsePart
  | .while _ _ body => 1 + stmtBlocks body

/-- Number of blocks that statements open. -/
def stmtBlocks : List Stmt → Nat
  | [] => 0
  | stmt :: rest => stmt.blockCount + stmtBlocks rest

/-- Number of blocks that the else part of an `if` opens. -/
def elseBlocks : Option ElsePart → Nat
  | none => 0
  | some ⟨_, body⟩ => 1 + stmtBlocks body

end

/-- Number of blocks that procedures open. -/
def funcBlocks : List FuncDecl → Nat
  | [] => 0
  | func :: rest => stmtBlocks func.body + funcBlocks rest

end ParseTree

end TinyGen
