import TinyGen.Proofs.Registers

/-!
# Strings where numbers are needed

Lowering refuses two things: reading into a `STRING` variable, and an operation that would have type
`STRING` because the operand it is typed by is a `STRING` variable. Nothing else: a string in the other
operand passes, and no computed value is a string, so the operand in question is a leaf.

* `Statement.refusal?` is what a statement is refused for, found by looking at the statement alone.
* `Code.ofStatements_refused`: lowering fails exactly if a statement is refused, with the error of the
  first one. Code that comes out neither operates on strings nor reads them.
-/

namespace TinyGen

open ThreeAddress

/-! ## Refused statements -/

/-- The name of a `STRING` variable. Every other term gives nothing. -/
def Term.stringVar? : Term → Option String
  | .var v => if v.ty = .string then some v.ident else none
  | _ => none

/-- The `STRING` variable that an operation would have its type from. -/
def Term.misplaced? : Term → Option String
  | .binary op lhs rhs => (op.typedBy lhs rhs).stringVar?
  | _ => none

/-- What a statement is refused for: the first operation of an assigned term that would have type
`STRING`, in post-order, or the first `STRING` variable that is read into. -/
def Statement.refusal? : Statement → Option Error
  | .assign _ value => (value.nodes.findSome? Term.misplaced?).map .stringArithmetic
  | .stringDecl _ _ => none
  | .read vars => (vars.find? (·.ty = .string)).map fun v => .unsupportedRead v.ident
  | .write _ => none

theorem Term.stringVar?_eq_some_iff {t : Term} {x : String} :
    t.stringVar? = some x ↔ t = .var ⟨x, .string⟩ := by
  cases t with
  | var v =>
    obtain ⟨ident, ty⟩ := v
    simp [stringVar?, and_comm]
  | _ => simp [stringVar?]

theorem Term.misplaced?_eq_some_iff {t : Term} {x : String} :
    t.misplaced? = some x ↔ ∃ op lhs rhs, t = .binary op lhs rhs ∧
      op.typedBy lhs rhs = .var ⟨x, .string⟩ := by
  cases t with
  | binary op lhs rhs =>
    rw [misplaced?, stringVar?_eq_some_iff]
    constructor
    · intro h
      exact ⟨op, lhs, rhs, rfl, h⟩
    · rintro ⟨_, _, _, he, h⟩
      cases he
      exact h
  | _ => simp [misplaced?]

/-- A statement is refused for a string that is read into, or for one that gives an operation its
type. -/
theorem Statement.isSome_refusal?_iff {s : Statement} :
    s.refusal?.isSome ↔
      (∃ vars, s = .read vars ∧ ∃ v ∈ vars, v.ty = .string) ∨
      ∃ target value, s = .assign target value ∧ ∃ op lhs rhs x,
        .binary op lhs rhs ∈ value.nodes ∧ op.typedBy lhs rhs = .var ⟨x, .string⟩ := by
  cases s with
  | assign target value =>
    rw [refusal?, Option.isSome_map, List.findSome?_isSome_iff]
    constructor
    · rintro ⟨node, hmem, hsome⟩
      obtain ⟨x, hx⟩ := Option.isSome_iff_exists.mp hsome
      obtain ⟨op, lhs, rhs, rfl, htyped⟩ := Term.misplaced?_eq_some_iff.mp hx
      exact .inr ⟨target, value, rfl, op, lhs, rhs, x, hmem, htyped⟩
    · rintro (⟨_, hread, -⟩ | ⟨_, _, hassign, op, lhs, rhs, x, hmem, htyped⟩)
      · cases hread
      · cases hassign
        have hx := Term.misplaced?_eq_some_iff.mpr ⟨op, lhs, rhs, rfl, htyped⟩
        exact ⟨_, hmem, Option.isSome_iff_exists.mpr ⟨x, hx⟩⟩
  | read vars => simp [refusal?]
  | stringDecl ident literal => simp [refusal?]
  | write vars => simp [refusal?]

/-! ## Failing with an error that is known -/

section FailsWith

variable {ε ε' α β : Type}

/-- `x` fails with `error?` if that is an error, and gives a value if it is none. -/
def FailsWith (error? : Option ε) (x : Except ε α) : Prop :=
  match error? with
  | some e => x = .error e
  | none => ∃ value, x = .ok value

variable {o o' : Option ε} {x : Except ε α}

theorem failsWith_ok (value : α) : FailsWith (none : Option ε) (.ok value) :=
  ⟨value, rfl⟩

theorem FailsWith.error_iff (h : FailsWith o x) {e : ε} : x = .error e ↔ o = some e := by
  cases o with
  | some e' => rw [show x = .error e' from h]; simp
  | none =>
    obtain ⟨value, rfl⟩ := h
    simp

theorem FailsWith.bind {y : α → Except ε β} (hx : FailsWith o x)
    (hy : ∀ value, x = .ok value → FailsWith o' (y value)) : FailsWith (o.or o') (x >>= y) := by
  cases o with
  | some e => rw [show x = .error e from hx]; rfl
  | none =>
    obtain ⟨value, rfl⟩ := hx
    exact hy value rfl

theorem FailsWith.map (h : FailsWith o x) (f : α → β) : FailsWith o (x.map f) := by
  cases o with
  | some e => rw [show x = .error e from h]; rfl
  | none =>
    obtain ⟨value, rfl⟩ := h
    exact ⟨f value, rfl⟩

theorem FailsWith.mapError (h : FailsWith o x) (f : ε → ε') :
    FailsWith (o.map f) (x.mapError f) := by
  cases o with
  | some e => rw [show x = .error e from h]; rfl
  | none =>
    obtain ⟨value, rfl⟩ := h
    exact ⟨value, rfl⟩

end FailsWith

/-! ## Lowering -/

/-- A lowered term is of type `STRING` only if it is a `STRING` variable, and then it is found under the
name of this variable. -/
theorem Term.stringVar?_of_lower {t : Term} {n n' : Nat} {v : Value} (h : t.lower n = .ok (v, n')) :
    t.stringVar? = if v.ty = .string then some v.location.text else none := by
  cases t with
  | literal text =>
    cases h
    exact (if_neg (Ty.ofLiteral_ne_string text)).symm
  | var ref => cases h; rfl
  | binary op lhs rhs =>
    obtain ⟨l, n₁, r, n₂, -, -, hop⟩ := lower_binary_ok h
    obtain ⟨ty, -, hty, -, rfl⟩ := applyOp_ok hop
    exact (if_neg hty).symm

theorem applyOp_failsWith {op : BinOp} {lhs rhs : Term} {l r : Value} {n n₁ n₂ : Nat}
    (hl : lhs.lower n = .ok (l, n₁)) (hr : rhs.lower n₁ = .ok (r, n₂)) :
    FailsWith ((Term.binary op lhs rhs).misplaced?.map Error.stringArithmetic)
      (applyOp op l r n₂) := by
  have htyped : (Term.binary op lhs rhs).misplaced? =
      if (op.typedBy l r).ty = .string then
        some (op.typedBy l r).location.text else none := by
    rw [Term.misplaced?]
    cases op with
    | add => exact Term.stringVar?_of_lower hr
    | sub => exact Term.stringVar?_of_lower hr
    | mul => exact Term.stringVar?_of_lower hl
    | div => exact Term.stringVar?_of_lower hl
  rw [htyped]
  by_cases hty : (op.typedBy l r).ty = .string
  · rw [if_pos hty, applyOp_of_string hty]
    rfl
  · rw [if_neg hty, applyOp_of_number hty]
    exact failsWith_ok _

/-- Lowering meets the nodes of a term in post-order, so it stops at the first that is refused. -/
theorem Term.lower_failsWith (t : Term) (n : Nat) :
    FailsWith ((t.nodes.findSome? misplaced?).map Error.stringArithmetic) (t.lower n) := by
  induction t generalizing n with
  | literal text => exact failsWith_ok _
  | var v => exact failsWith_ok _
  | binary op lhs rhs ihl ihr =>
    have hnodes : ((Term.binary op lhs rhs).nodes.findSome? misplaced?).map Error.stringArithmetic =
        ((lhs.nodes.findSome? misplaced?).map Error.stringArithmetic).or
          (((rhs.nodes.findSome? misplaced?).map Error.stringArithmetic).or
            ((Term.binary op lhs rhs).misplaced?.map Error.stringArithmetic)) := by
      rw [nodes, List.findSome?_append, List.findSome?_append, List.findSome?_singleton,
        Option.or_assoc, Option.map_or, Option.map_or]
    rw [hnodes, lower_binary]
    exact (ihl n).bind fun left hl => (ihr left.2).bind fun right hr => applyOp_failsWith hl hr

namespace ThreeAddress

theorem readVars_failsWith (vars : List VarRef) :
    FailsWith ((vars.find? (·.ty = .string)).map fun v => Error.unsupportedRead v.ident)
      (readVars vars) := by
  induction vars with
  | nil => exact failsWith_ok []
  | cons v rest ih =>
    rw [readVars, List.find?_cons]
    by_cases hty : v.ty = .string
    · simp [hty, FailsWith]
    · simpa [hty] using ih.map (Instr.read v.ty v.ident :: ·)

theorem lowerStatement_failsWith (s : Statement) (n : Nat) :
    FailsWith (s.refusal?.map Fault.error) (lowerStatement s n) := by
  cases s with
  | assign target value =>
    rw [lowerStatement_assign]
    have hstore : ∀ lowered, (value.lower n).mapError Fault.error = .ok lowered →
        FailsWith none (Fault.ofMisuse (storeValue target lowered.1 lowered.2)) := by
      intro lowered h
      cases hv : value.lower n with
      | error e => rw [hv] at h; cases h
      | ok result =>
        rw [hv] at h
        cases h
        obtain ⟨stored, hstored⟩ := (Term.lower_formed hv).exists_storeValue target lowered.2
        exact ⟨stored, by rw [hstored]; rfl⟩
    have h := ((value.lower_failsWith n).mapError Fault.error).bind hstore
    rwa [Option.or_none] at h
  | stringDecl ident literal => exact failsWith_ok _
  | read vars =>
    rw [lowerStatement_read]
    exact ((readVars_failsWith vars).map _).mapError _
  | write vars => exact failsWith_ok _

theorem lowerStatements_failsWith (statements : List Statement) (n : Nat) :
    FailsWith ((statements.findSome? Statement.refusal?).map Fault.error)
      (lowerStatements statements n) := by
  induction statements generalizing n with
  | nil => exact failsWith_ok _
  | cons s rest ih =>
    have hfirst : ((s :: rest).findSome? Statement.refusal?).map Fault.error =
        (s.refusal?.map Fault.error).or
          ((rest.findSome? Statement.refusal?).map Fault.error) := by
      rw [List.findSome?_cons]
      cases s.refusal? <;> rfl
    rw [hfirst, lowerStatements]
    exact (lowerStatement_failsWith s n).bind fun first _ => (ih first.2).map _

theorem Code.ofStatements_failsWith (statements : List Statement) :
    FailsWith ((statements.findSome? Statement.refusal?).map Fault.error)
      (Code.ofStatements statements) :=
  (lowerStatements_failsWith statements 0).map _

/-- **Lowering refuses misplaced strings and nothing else.** It fails exactly if a `STRING` variable is
read into, or is the operand that some operation is typed by. The error is that of the first statement
with such a string. So code that comes out has no operation and no read of type `STRING`. -/
theorem Code.ofStatements_refused (statements : List Statement) :
    ((∃ fault, Code.ofStatements statements = .error fault) ↔
      (∃ vars, .read vars ∈ statements ∧ ∃ v ∈ vars, v.ty = .string) ∨
      ∃ target value, .assign target value ∈ statements ∧ ∃ op lhs rhs x,
        .binary op lhs rhs ∈ value.nodes ∧
          op.typedBy lhs rhs = .var ⟨x, .string⟩) ∧
    (∀ fault, Code.ofStatements statements = .error fault ↔
      ∃ before s after e, statements = before ++ s :: after ∧
        (∀ earlier ∈ before, earlier.refusal? = none) ∧ s.refusal? = some e ∧ fault = .error e) ∧
    ∀ code, Code.ofStatements statements = .ok code → ∀ i ∈ code.instrs, i.Numeric := by
  have hfault : ∀ fault, Code.ofStatements statements = .error fault ↔
      ∃ e, statements.findSome? Statement.refusal? = some e ∧ fault = .error e := by
    intro fault
    rw [(Code.ofStatements_failsWith statements).error_iff, Option.map_eq_some_iff]
    simp only [eq_comm]
  refine ⟨?_, fun fault => ?_, fun code h i hi => ?_⟩
  · have hsome : (∃ fault, Code.ofStatements statements = .error fault) ↔
        ∃ s ∈ statements, s.refusal?.isSome := by
      rw [← List.findSome?_isSome_iff, Option.isSome_iff_exists]
      constructor
      · rintro ⟨fault, h⟩
        obtain ⟨e, he, -⟩ := (hfault fault).mp h
        exact ⟨e, he⟩
      · rintro ⟨e, he⟩
        exact ⟨_, (hfault _).mpr ⟨e, he, rfl⟩⟩
    -- A statement is refused for a variable that is read, or for an operation in a value.
    simp only [hsome, Statement.isSome_refusal?_iff]
    constructor
    · rintro ⟨s, hs, ⟨vars, rfl, hv⟩ | ⟨target, value, rfl, hop⟩⟩
      · exact .inl ⟨vars, hs, hv⟩
      · exact .inr ⟨target, value, hs, hop⟩
    · rintro (⟨vars, hs, hv⟩ | ⟨target, value, hs, hop⟩)
      · exact ⟨_, hs, .inl ⟨vars, rfl, hv⟩⟩
      · exact ⟨_, hs, .inr ⟨target, value, rfl, hop⟩⟩
  · rw [hfault]
    constructor
    · rintro ⟨e, hfirst, rfl⟩
      obtain ⟨before, s, after, rfl, hs, hbefore⟩ := List.findSome?_eq_some_iff.mp hfirst
      exact ⟨before, s, after, e, rfl, hbefore, hs, rfl⟩
    · rintro ⟨before, s, after, e, rfl, hbefore, hs, rfl⟩
      exact ⟨e, List.findSome?_eq_some_iff.mpr ⟨before, s, after, rfl, hs, hbefore⟩, rfl⟩
  · exact ((Code.ofStatements_selectable h).each i hi).numeric

/-- A string that is added to on its right and one that is multiplied from its left pass. After them,
the inner operation of a product is refused before the product is, and before a string that is read
into. -/
theorem Code.ofStatements_refused_inner_operation :
    let s : Term := .var ⟨"s", .string⟩
    let t : Term := .var ⟨"t", .string⟩
    let accepted : List Statement :=
      [.assign ⟨"a", .int⟩ (.binary .add s (.literal "1")),
        .assign ⟨"a", .int⟩ (.binary .mul (.literal "2") s), .read [⟨"a", .int⟩]]
    let refused : List Statement :=
      [.assign ⟨"a", .int⟩ (.binary .mul s (.binary .sub (.literal "2") t)), .read [⟨"s", .string⟩]]
    (∃ code, Code.ofStatements accepted = .ok code ∧ ∀ i ∈ code.instrs, i.Numeric) ∧
    Code.ofStatements (accepted ++ refused) = .error (.error (.stringArithmetic "t")) := by
  intro s t accepted refused
  constructor
  · obtain ⟨code, hcode⟩ : ∃ code, Code.ofStatements accepted = .ok code := ⟨_, by cbv⟩
    exact ⟨code, hcode, (Code.ofStatements_refused accepted).2.2 code hcode⟩
  · refine ((Code.ofStatements_refused (accepted ++ refused)).2.1 _).mpr ?_
    exact ⟨accepted, _, [.read [⟨"s", .string⟩]], _, rfl, by decide, rfl, rfl⟩

end ThreeAddress

end TinyGen
