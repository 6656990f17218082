import TinyGen.Target
import TinyGen.ThreeAddress

/-!
# Meaning of statements, of three-address code and of target programs

What the three forms of a program do, over any type `V` of values and any type `I` of inputs. A
`World` is the part of a state that all three share: the cells of the identifiers, the input that is
left and the output so far.

* `Statement.exec`, `Statement.execAll`: statements, executed directly on a world.
* `ThreeAddress.run`: three-address code, on a world and the contents of the temporaries.
* `Target.run`: target instructions, on a world and the contents of the registers.

The values of constants, the operators and reads are parameters (`Meaning`, `Target.Meaning`). The
target machine takes a constant by its text alone; three-address code loads it at a type.
-/

namespace TinyGen

universe u v

variable {V : Type u} {I : Type v}

/-- Meaning of the typed operators and of typed reads, which take from the input. -/
structure Operations (V : Type u) (I : Type v) where
  arith : BinOp → Ty → V → V → V
  read : Ty → I → V × I

/-- Integers, with the same operators at all types. A read takes the next integer of the input, and
`0` at its end. -/
def Operations.integers : Operations Int (List Int) where
  arith
    | .add, _ => (· + ·)
    | .sub, _ => (· - ·)
    | .mul, _ => (· * ·)
    | .div, _ => (· / ·)
  read _ input := (input.headD 0, input.tail)

/-- Meaning of the operations, and of a constant loaded at a type. -/
structure Meaning (V : Type u) (I : Type v) extends Operations V I where
  load : Ty → String → V

/-! ## Worlds -/

/-- The cell of each identifier, the input that is left, and what has been written. -/
structure World (V : Type u) (I : Type v) where
  vars : String → V
  input : I
  output : List (Ty × V)

namespace World

/-- Sets the cell of an identifier. -/
def set (w : World V I) (ident : String) (value : V) : World V I :=
  { w with vars := fun x => if x = ident then value else w.vars x }

/-- Reads a value of a type into the cell of an identifier. -/
def read (ops : Operations V I) (ty : Ty) (ident : String) (w : World V I) : World V I :=
  { w with input := (ops.read ty w.input).2 }.set ident (ops.read ty w.input).1

/-- Writes the cell of an identifier at a type. -/
def write (ty : Ty) (ident : String) (w : World V I) : World V I :=
  { w with output := w.output ++ [(ty, w.vars ident)] }

end World

/-! ## Statements -/

/-- The operand that an operation is typed by: the right one of a sum or difference, the left one of
a product or quotient. -/
def BinOp.typedBy {α : Type u} : BinOp → (lhs rhs : α) → α
  | .add, _, rhs => rhs
  | .sub, _, rhs => rhs
  | .mul, lhs, _ => lhs
  | .div, lhs, _ => lhs

theorem BinOp.ite_isAdditive {α : Type u} (op : BinOp) (lhs rhs : α) :
    (if op.isAdditive then rhs else lhs) = op.typedBy lhs rhs := by
  cases op <;> rfl

theorem BinOp.typedBy_map {α : Type u} {β : Type v} (f : α → β) (op : BinOp) (lhs rhs : α) :
    op.typedBy (f lhs) (f rhs) = f (op.typedBy lhs rhs) := by
  cases op <;> rfl

theorem BinOp.typedBy_of {α : Type u} {P : α → Prop} (op : BinOp) {lhs rhs : α} (hl : P lhs)
    (hr : P rhs) : P (op.typedBy lhs rhs) := by
  cases op <;> assumption

/-- Type of a term. An operation has the type of the operand that it is typed by. -/
def Term.ty : Term → Ty
  | .literal text => .ofLiteral text
  | .var v => v.ty
  | .binary op lhs rhs => op.typedBy lhs.ty rhs.ty

/-- Value of a term that is used at type `ty`. Only a constant depends on it: an operand that is a
constant is loaded at the type of its operation. -/
def Term.eval (m : Meaning V I) (vars : String → V) (ty : Ty) : Term → V
  | .literal text => m.load ty text
  | .var v => vars v.ident
  | .binary op lhs rhs =>
    let own := (Term.binary op lhs rhs).ty
    m.arith op own (lhs.eval m vars own) (rhs.eval m vars own)

namespace Statement

/-- Executes a statement. The value of an assignment is used at the type of its target. -/
def exec (m : Meaning V I) (w : World V I) : Statement → World V I
  | .assign target value => w.set target.ident (value.eval m w.vars target.ty)
  | .stringDecl _ _ => w
  | .read vars => vars.foldl (fun w v => w.read m.toOperations v.ty v.ident) w
  | .write vars => vars.foldl (fun w v => w.write v.ty v.ident) w

/-- Executes statements one after another. -/
def execAll (m : Meaning V I) (statements : List Statement) (w : World V I) : World V I :=
  statements.foldl (exec m) w

end Statement

/-! ## Instruction lists -/

section RunUntil

variable {ι : Type} {σ : Type u} [DecidableEq ι] {stop : ι} {step : ι → σ → σ}

/-- Executes instructions in order, up to the first `stop`. -/
def runUntil (stop : ι) (step : ι → σ → σ) : List ι → σ → σ
  | [], s => s
  | instr :: rest, s => if instr = stop then s else runUntil stop step rest (step instr s)

theorem runUntil_cons {instr : ι} (h : instr ≠ stop) (rest : List ι) (s : σ) :
    runUntil stop step (instr :: rest) s = runUntil stop step rest (step instr s) :=
  if_neg h

theorem runUntil_append {a : List ι} (h : stop ∉ a) (b : List ι) (s : σ) :
    runUntil stop step (a ++ b) s = runUntil stop step b (runUntil stop step a s) := by
  induction a generalizing s with
  | nil => rfl
  | cons instr rest ih =>
    rw [List.mem_cons, not_or] at h
    rw [List.cons_append, runUntil_cons (Ne.symm h.1), runUntil_cons (Ne.symm h.1)]
    exact ih h.2 _

/-- A stop at the end may be left off. -/
theorem runUntil_stop (a : List ι) (s : σ) :
    runUntil stop step (a ++ [stop]) s = runUntil stop step a s := by
  induction a generalizing s with
  | nil => exact if_pos rfl
  | cons instr rest ih =>
    simp only [List.cons_append, runUntil]
    split
    · rfl
    · exact ih _

end RunUntil

/-! ## Three-address code -/

namespace ThreeAddress

/-- A world and the contents of the temporaries. -/
structure State (V : Type u) (I : Type v) where
  world : World V I
  temps : Temp → V

namespace State

/-- Value of an operand that is used at type `ty`. -/
def value (m : Meaning V I) (ty : Ty) (s : State V I) : Operand → V
  | .temp t => s.temps t
  | .var ident => s.world.vars ident
  | .literal text => m.load ty text

/-- Stores a value. What is stored into a constant is lost. -/
def store (s : State V I) (dst : Operand) (value : V) : State V I :=
  match dst with
  | .temp t => { s with temps := fun x => if x = t then value else s.temps x }
  | .var ident => { s with world := s.world.set ident value }
  | .literal _ => s

end State

/-- Executes one instruction. -/
def step (m : Meaning V I) : Instr → State V I → State V I
  | .label _, s => s
  | .link, s => s
  | .ret, s => s
  | .store ty src dst, s => s.store dst (s.value m ty src)
  | .binary op ty lhs rhs dst, s =>
    s.store (.temp dst) (m.arith op ty (s.value m ty lhs) (s.value m ty rhs))
  | .read ty ident, s => { s with world := s.world.read m.toOperations ty ident }
  | .write ty ident, s => { s with world := s.world.write ty ident }

/-- Executes instructions up to the first return. -/
def run (m : Meaning V I) : List Instr → State V I → State V I :=
  runUntil .ret (step m)

variable {m : Meaning V I} {s : State V I}

theorem run_cons {i : Instr} (h : i ≠ .ret) (rest : List Instr) :
    run m (i :: rest) s = run m rest (step m i s) :=
  runUntil_cons h rest s

/-- A single instruction; a return changes nothing. -/
theorem run_single (i : Instr) : run m [i] s = step m i s := by
  by_cases h : i = .ret
  · rw [h]; rfl
  · exact run_cons h []

theorem run_append {a : List Instr} (h : .ret ∉ a) (b : List Instr) :
    run m (a ++ b) s = run m b (run m a s) :=
  runUntil_append h b s

/-- A return at the end may be left off. -/
theorem run_ret (a : List Instr) : run m (a ++ [.ret]) s = run m a s :=
  runUntil_stop a s

end ThreeAddress

/-! ## Target programs -/

namespace Target

/-- Meaning of the operations, and of a constant by its text. -/
structure Meaning (V : Type u) (I : Type v) extends Operations V I where
  constant : String → V

/-- The same meaning for three-address code: the type at which a constant is loaded does not
matter. -/
def Meaning.typed (m : Meaning V I) : TinyGen.Meaning V I :=
  { m with load := fun _ text => m.constant text }

/-- A world and the contents of the registers. -/
structure State (V : Type u) (I : Type v) where
  world : World V I
  registers : Register → V

namespace State

/-- Value of an operand. -/
def value (m : Meaning V I) (s : State V I) : Operand → V
  | .register r => s.registers r
  | .var ident => s.world.vars ident
  | .immediate text => m.constant text

/-- Stores a value. What is stored into a constant is lost. -/
def store (s : State V I) (dst : Operand) (value : V) : State V I :=
  match dst with
  | .register r => { s with registers := fun x => if x = r then value else s.registers x }
  | .var ident => { s with world := s.world.set ident value }
  | .immediate _ => s

end State

/-- Executes one instruction. A declaration does nothing. -/
def step (m : Meaning V I) : Instr → State V I → State V I
  | .var _, s => s
  | .str _ _, s => s
  | .move src dst, s => s.store dst (s.value m src)
  | .arith op ty src dst, s =>
    s.store (.register dst) (m.arith op ty.toTy (s.registers dst) (s.value m src))
  | .read ty ident, s => { s with world := s.world.read m.toOperations ty.toTy ident }
  | .write ty ident, s => { s with world := s.world.write ty ident }
  | .halt, s => s

/-- Executes instructions up to the first halt. -/
def run (m : Meaning V I) : List Instr → State V I → State V I :=
  runUntil .halt (step m)

variable {m : Meaning V I} {s : State V I}

theorem run_append {a : List Instr} (h : .halt ∉ a) (b : List Instr) :
    run m (a ++ b) s = run m b (run m a s) :=
  runUntil_append h b s

/-- A halt at the end may be left off. -/
theorem run_halt (a : List Instr) : run m (a ++ [.halt]) s = run m a s :=
  runUntil_stop a s

end Target

end TinyGen
