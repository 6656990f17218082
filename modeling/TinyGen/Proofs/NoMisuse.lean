import TinyGen.Compile
import TinyGen.Proofs.Declarations
import TinyGen.Proofs.Registers
import TinyGen.Proofs.Uses

/-!
# Compiling without misuse

Stages can be misused: by events in an order that no walk has, by nodes that are no post-order
listing, by code that operates on strings. `Program.listing_proper` says that compiling a program
never does that. Every stage gives a result or one of its own errors (`Stage.Refuses`).

Each stage is seen to be `Proper` for itself, whatever it is handed by the stage before. The last one
is not: instruction selection relies on the types of the code, and these are what lowering checks.
-/

namespace TinyGen

open ParseTree ThreeAddress

/-! ## Proper ends -/

section Proper

variable {α β : Type} {P Q : Error → Prop}

/-- `x` is a value, or an error with `P`; nothing has been misused. -/
def Proper (P : Error → Prop) : Except Fault α → Prop
  | .ok _ => True
  | .error (.error e) => P e
  | .error (.misuse _) => False

theorem Proper.mono {x : Except Fault α} (h : Proper P x) (hPQ : ∀ e, P e → Q e) : Proper Q x := by
  match x with
  | .ok a => trivial
  | .error (.error e) => exact hPQ e h
  | .error (.misuse m) => exact h

theorem Proper.bind {x : Except Fault α} {f : α → Except Fault β} (hx : Proper P x)
    (hf : ∀ a, x = .ok a → Proper P (f a)) : Proper P (x >>= f) := by
  match x with
  | .ok a => exact hf a rfl
  | .error (.error e) => exact hx
  | .error (.misuse m) => exact hx

/-- It is enough to look at faults. -/
theorem proper_of_error {x : Except Fault α}
    (h : ∀ fault, x = .error fault → ∃ e, fault = .error e ∧ P e) : Proper P x := by
  cases x with
  | ok a => trivial
  | error fault =>
    obtain ⟨e, rfl, he⟩ := h fault rfl
    exact he

end Proper

/-! ## Errors -/

namespace Error

def IsDuplicate (e : Error) : Prop :=
  ∃ scope ident, e = .duplicateDeclaration scope ident

def IsUndeclared (e : Error) : Prop :=
  ∃ ident, e = .undeclaredVariable ident

/-- A `STRING` is calculated with. -/
def IsStringOperation (e : Error) : Prop :=
  ∃ operand, e = .stringArithmetic operand

/-- A `STRING` stands where a number is needed. -/
def IsMisplacedString (e : Error) : Prop :=
  (∃ ident, e = .unsupportedRead ident) ∨ e.IsStringOperation

end Error

/-- The errors with which a stage can end: those of the stages up to it. -/
def Stage.Refuses (stage : Stage) (e : Error) : Prop :=
  e.IsDuplicate ∨ (stage ≠ .symbols ∧ e.IsUndeclared) ∨
    (stage ≠ .symbols ∧ stage ≠ .tree ∧ e.IsMisplacedString)

/-! ## Names -/

theorem ParseTree.Program.scopeTable_proper (program : Program) :
    Proper Error.IsDuplicate program.scopeTable := by
  refine proper_of_error fun fault h => ?_
  obtain ⟨scope, ident, rfl, -⟩ := Program.scopeTable_eq_error_iff.mp h
  exact ⟨_, rfl, scope, ident, rfl⟩

theorem ParseTree.Program.statements_proper (program : Program) (table : ScopeTable) :
    Proper Error.IsUndeclared (program.statements table) := by
  refine proper_of_error fun fault h => ?_
  rw [Program.statements_eq, Fault.lift_eq_error_iff] at h
  obtain ⟨e, he, rfl⟩ := h
  obtain ⟨use, -, rfl⟩ := (program.lexical_failsAt table).error_iff.mp he
  exact ⟨_, rfl, use.ident, rfl⟩

/-! ## Lowering -/

namespace ThreeAddress

theorem applyOp_error {op : BinOp} {l r : Value} {n : Nat} {e : Error}
    (h : applyOp op l r n = .error e) : e.IsStringOperation := by
  by_cases hty : (op.typedBy l r).ty = .string
  · rw [applyOp_of_string hty] at h
    cases h
    exact ⟨_, rfl⟩
  · rw [applyOp_of_number hty] at h
    cases h

end ThreeAddress

theorem Term.lower_error {t : Term} {n : Nat} {e : Error} (h : t.lower n = .error e) :
    e.IsStringOperation := by
  induction t generalizing n e with
  | literal text => cases h
  | var v => cases h
  | binary op lhs rhs ihl ihr =>
    rw [lower] at h
    cases hl : lhs.lower n with
    | error el =>
      rw [hl] at h
      cases h
      exact ihl hl
    | ok left =>
      simp only [hl] at h
      cases hr : rhs.lower left.2 with
      | error er =>
        rw [hr] at h
        cases h
        exact ihr hr
      | ok right =>
        rw [hr] at h
        exact applyOp_error h

namespace ThreeAddress

/-- A value that needs code is typed, and it is a number. -/
theorem Value.Formed.typed_of_code {v : Value} (h : v.Formed) (hcode : v.code ≠ []) :
    ∃ ty, v.kind = .typed ty ∧ ty ≠ .string := by
  cases h with
  | var v => exact absurd rfl hcode
  | constant text => exact absurd rfl hcode
  | computed _ result hty => exact ⟨_, rfl, hty⟩

/-- Over a post-order listing the machine ends with one value on its stack, which can be stored,
unless a string is calculated with. -/
theorem Machine.run_postOrder (t : Term) (temps : Nat) :
    (∃ v temps', (Machine.mk [] temps).run t.postOrder = .ok ⟨[v], temps'⟩ ∧
      (v.code ≠ [] → ∃ ty, v.kind = .typed ty ∧ ty ≠ .string) ∧
      ∀ target, ∃ stored, storeValue target v temps' = .ok stored) ∨
    ∃ operand, (Machine.mk [] temps).run t.postOrder =
      .error (.error (.stringArithmetic operand)) := by
  have hrun := Machine.run_nodes t [] temps []
  rw [List.append_nil, ← Term.postOrder_eq_nodes] at hrun
  cases h : t.lower temps with
  | error e =>
    obtain ⟨operand, rfl⟩ := Term.lower_error h
    rw [h] at hrun
    exact .inr ⟨operand, hrun⟩
  | ok lowered =>
    rw [h] at hrun
    have hformed := Term.lower_formed h
    exact .inl ⟨lowered.1, lowered.2, hrun, hformed.typed_of_code,
      fun target => hformed.exists_storeValue target lowered.2⟩

theorem readVars_error {vars : List VarRef} {e : Error} (h : readVars vars = .error e) :
    ∃ ident, e = .unsupportedRead ident := by
  induction vars with
  | nil => cases h
  | cons v rest ih =>
    rw [readVars] at h
    split at h
    · cases h
      exact ⟨_, rfl⟩
    · cases hr : readVars rest with
      | error er =>
        rw [hr] at h
        cases h
        exact ih hr
      | ok instrs =>
        rw [hr] at h
        cases h

theorem lowerStatement_proper (statement : Statement) (temps : Nat) :
    Proper Error.IsMisplacedString (lowerStatement statement temps) := by
  cases statement with
  | assign target value =>
    rw [lowerStatement_assign]
    cases h : value.lower temps with
    | error e => exact .inr (Term.lower_error h)
    | ok lowered =>
      obtain ⟨stored, hstored⟩ := (Term.lower_formed h).exists_storeValue target lowered.2
      show Proper _ (Fault.ofMisuse (storeValue target lowered.1 lowered.2))
      rw [hstored]
      trivial
  | stringDecl ident literal => trivial
  | read vars =>
    rw [lowerStatement]
    cases h : readVars vars with
    | error e => exact .inl (readVars_error h)
    | ok instrs => trivial
  | write vars => trivial

theorem lowerStatements_proper (statements : List Statement) (temps : Nat) :
    Proper Error.IsMisplacedString (lowerStatements statements temps) := by
  induction statements generalizing temps with
  | nil => trivial
  | cons statement rest ih =>
    rw [lowerStatements]
    refine (lowerStatement_proper statement temps).bind fun first _ => ?_
    exact (ih first.2).bind fun _ _ => trivial

theorem Code.ofStatements_proper (statements : List Statement) :
    Proper Error.IsMisplacedString (Code.ofStatements statements) :=
  (lowerStatements_proper statements 0).bind fun _ _ => trivial

end ThreeAddress

/-! ## Selection -/

/-- Selection finds no string in lowered code where it needs a number. -/
theorem ParseTree.Program.target_ofStatements {statements : List Statement} {code : Code}
    (h : Code.ofStatements statements = .ok code) (table : ScopeTable) :
    ∃ target, Program.target table code = .ok target := by
  have hnumeric : ∀ i ∈ code.instrs, i.Numeric :=
    fun i hi => ((Code.ofStatements_selectable h).each i hi).numeric
  rw [Program.target, Target.Program.ofCode_eq table hnumeric]
  exact ⟨_, rfl⟩

/-! ## All stages -/

namespace ParseTree

theorem Program.outcome_refuses (program : Program) (stage : Stage) :
    Proper stage.Refuses (program.outcome stage) := by
  have htable := program.scopeTable_proper.mono (Q := stage.Refuses) fun e he => .inl he
  rw [Program.outcome]
  refine htable.bind fun table _ => ?_
  split
  · trivial
  rename_i hsymbols
  have hstatements := (program.statements_proper table).mono (Q := stage.Refuses)
    fun e he => .inr (.inl ⟨hsymbols, he⟩)
  refine hstatements.bind fun statements _ => ?_
  split
  · trivial
  rename_i htree
  have hcode := (Code.ofStatements_proper statements).mono (Q := stage.Refuses)
    fun e he => .inr (.inr ⟨hsymbols, htree, he⟩)
  refine hcode.bind fun code hok => ?_
  split
  · trivial
  -- Selection has no errors: what it refuses has been refused by lowering.
  obtain ⟨target, htarget⟩ := Program.target_ofStatements hok table
  rw [htarget]
  show Proper _ (if stage = .tiny then _ else _)
  split <;> trivial

theorem Program.listing_refuses (program : Program) (stage : Stage) :
    Proper stage.Refuses (program.listing stage) := by
  have h := program.outcome_refuses stage
  rw [Program.listing]
  match program.outcome stage, h with
  | .ok outcome, _ => trivial
  | .error (.error e), h => exact h

/-- **Compiling is never misused.** Building the scope table gives a table or refuses a duplicate;
building statements over any table gives statements or refuses an undeclared name; lowering any
statements leaves one value for each term, typed if it needs code and so ready to be stored, and gives
code or refuses a string; selection from such code gives a target program. So a program has the lines
of a stage or an error of the stages up to it. -/
theorem Program.listing_proper (program : Program) :
    Proper Error.IsDuplicate program.scopeTable ∧
    (∀ table, Proper Error.IsUndeclared (program.statements table)) ∧
    (∀ (t : Term) (temps : Nat),
      (∃ v temps', (Machine.mk [] temps).run t.postOrder = .ok ⟨[v], temps'⟩ ∧
        (v.code ≠ [] → ∃ ty, v.kind = .typed ty ∧ ty ≠ .string) ∧
        ∀ target, ∃ stored, storeValue target v temps' = .ok stored) ∨
      ∃ operand, (Machine.mk [] temps).run t.postOrder =
        .error (.error (.stringArithmetic operand))) ∧
    (∀ statements, Proper Error.IsMisplacedString (Code.ofStatements statements)) ∧
    (∀ statements code, Code.ofStatements statements = .ok code →
      ∀ table, ∃ target, Program.target table code = .ok target) ∧
    ∀ stage, Proper stage.Refuses (program.listing stage) :=
  ⟨program.scopeTable_proper, program.statements_proper, Machine.run_postOrder,
    Code.ofStatements_proper, fun _ _ h => Program.target_ofStatements h, program.listing_refuses⟩

/-- A procedure that is there twice, empty names and lists, and statements with nested operations. The
stages are misused by an operator that no operand comes before, by a reduction with no operator on top,
and by code whose value is a constant. -/
theorem Program.listing_odd_program :
    let branch : Stmt :=
      .ifThen ⟨⟨⟨.atom "", []⟩, []⟩, .less, ⟨⟨.atom "", []⟩, []⟩⟩ [.var .int []] [.read []]
        (some ⟨[], [.write []]⟩)
    let program : Program := ⟨"", [], [⟨"f", [], [], [branch]⟩, ⟨"f", [], [], []⟩]⟩
    let value : Term := .binary .sub (.literal "1")
      (.binary .mul (.var ⟨"a", .float⟩) (.binary .add (.literal "2") (.literal "3.5")))
    let statements : List Statement := [.assign ⟨"a", .float⟩ value, .read [], .stringDecl "s" ""]
    let table : ScopeTable := ⟨[(.global, [⟨"a", .num .float⟩])]⟩
    (∃ code, Code.ofStatements statements = .ok code ∧ code.temps = 6 ∧
      ∃ target, Program.target table code = .ok target) ∧
    Proper Stage.all.Refuses (program.listing .all) ∧
    ¬ Proper (fun _ => True) (Step.run Statement.Builder.raise
      [.enterProgram "p", .enterAssign "a", .addOp .add, .exitAssign "a"] (.new table)).result ∧
    OpenAssign.combine (some .group) [.literal "1", .literal "2"] =
      .error .reductionWithoutOperator ∧
    storeValue ⟨"a", .int⟩ ⟨[.link], .literal "1", .constant⟩ 0 = .error .untypedComputation := by
  intro branch program value statements table
  obtain ⟨code, hcode, htemps⟩ : ∃ code, Code.ofStatements statements = .ok code ∧ code.temps = 6 :=
    ⟨_, by cbv, rfl⟩
  obtain ⟨-, -, -, -, htarget, hlisting⟩ := program.listing_proper
  exact ⟨⟨code, hcode, htemps, htarget statements code hcode table⟩, hlisting .all, fun h => h, rfl, rfl⟩

end ParseTree

end TinyGen
