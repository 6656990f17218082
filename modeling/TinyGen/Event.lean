import TinyGen.ParseTree

/-!
# Traversal events

A parse tree is handed to the stages as events, raised by a depth-first walk: the declarations of a
body come before its statements, operands and operators come in the order they are written, and
what is entered is left again.

A stage is a function from its state and an event to a `Step`: the state reached, and possibly a
fault, after which no further event is delivered.
-/

namespace TinyGen

open ParseTree

/-- One step of the walk over a parse tree. -/
inductive Event where
  | enterProgram (ident : String)
  | exitProgram
  | varDecl (ty : NumTy) (idents : List String)
  | paramDecls (params : List Param)
  | stringDecl (ident literal : String)
  | enterProcedure (ident : String)
  | exitProcedure (ident : String)
  | enterIf (hasElse : Bool)
  | exitIf
  | enterElse
  | exitElse
  | enterWhile
  | exitWhile
  | enterAssign (target : String)
  | exitAssign (target : String)
  | read (idents : List String)
  | write (idents : List String)
  | addOp (op : AddOp)
  | mulOp (op : MulOp)
  | enterAtom (text : String)
  | exitAtom (text : String)
  | enterGroup (inner : Expr)
  | exitGroup (inner : Expr)

/-! ## Steps -/

/-- What delivering events leads to: the state reached, and the fault that stopped the delivery. -/
structure Step (ε σ : Type) where
  state : σ
  fault : Option ε
  deriving DecidableEq, Repr

namespace Step

variable {ε σ : Type}

/-- A step without fault. -/
def ok (state : σ) : Step ε σ := ⟨state, none⟩

/-- A step that stops at a fault. -/
def stop (state : σ) (fault : ε) : Step ε σ := ⟨state, some fault⟩

/-- Goes on from the state reached, unless there was a fault. -/
@[inline] def andThen (step : Step ε σ) (next : σ → Step ε σ) : Step ε σ :=
  match step with
  | ⟨state, none⟩ => next state
  | ⟨state, some fault⟩ => ⟨state, some fault⟩

/-- Delivers events one after another, up to the first fault. -/
def run (visit : σ → Event → Step ε σ) : List Event → σ → Step ε σ
  | [], state => ok state
  | event :: rest, state => (visit state event).andThen (run visit rest)

/-- The state reached without a fault, or the fault. -/
def result (step : Step ε σ) : Except ε σ :=
  match step.fault with
  | none => .ok step.state
  | some fault => .error fault

@[simp] theorem ok_andThen (state : σ) (next : σ → Step ε σ) :
    (ok state).andThen next = next state := rfl

@[simp] theorem stop_andThen (state : σ) (fault : ε) (next : σ → Step ε σ) :
    (stop state fault).andThen next = stop state fault := rfl

theorem andThen_assoc (step : Step ε σ) (f g : σ → Step ε σ) :
    (step.andThen f).andThen g = step.andThen fun state => (f state).andThen g := by
  obtain ⟨state, _ | fault⟩ := step <;> rfl

end Step

/-- A stage that keeps the events it is given. When it has kept as many as `limit`, it stops with
`fault` at the next one. -/
def Event.keep {ε : Type} (limit : Option Nat) (fault : ε) (kept : Array Event) (event : Event) :
    Step ε (Array Event) :=
  if limit = some kept.size then .stop kept fault else .ok (kept.push event)

end TinyGen
