import TinyGen.Proofs.Storage

/-!
# Operands of compiled programs

What stands in the operands of a target program, its declarations included.

* `Compilation.register_mem_operands`: its registers are those from 1 to their number.
* `Compilation.var_mem_operands`: its names are the declared ones.
* `Compilation.isNumeral_of_immediate`: its constants are numerals. Only an atom that is one becomes
  a constant (`Program.statements_numerals`), and no later stage makes another
  (`Code.ofStatements_numerals`).
-/

namespace TinyGen

/-! ## Constants of statements -/

/-- The constants of the value are numerals. -/
def Term.Numerals : Term → Prop
  | .literal text => Text.isNumeral text
  | .var _ => True
  | .binary _ lhs rhs => lhs.Numerals ∧ rhs.Numerals

/-- The constants of the statement are numerals. -/
def Statement.Numerals : Statement → Prop
  | .assign _ value => value.Numerals
  | _ => True

/-- The constants of the statements are numerals. -/
def TreeNumerals (statements : List Statement) : Prop :=
  ∀ statement ∈ statements, statement.Numerals

/-- What `x` gives, if anything, satisfies `P`. -/
def Gives {α : Type} (P : α → Prop) (x : Except Error α) : Prop :=
  ∀ value, x = .ok value → P value

section Gives

variable {α β : Type} {P : α → Prop} {Q : β → Prop}

theorem gives_ok {value : α} (h : P value) : Gives P (.ok value) := by
  intro value' he
  cases he
  exact h

/-- Nothing is asked of a value whose constants do not matter. -/
theorem gives_any (x : Except Error α) : Gives (fun _ => True) x :=
  fun _ _ => trivial

/-- A property of what is computed first is a hypothesis for what is computed from it. -/
theorem Gives.bind {x : Except Error α} {y : α → Except Error β} (hx : Gives P x)
    (hy : ∀ value, P value → Gives Q (y value)) : Gives Q (x >>= y) := by
  cases x with
  | error e => exact fun _ he => nomatch he
  | ok value => exact hy value (hx value rfl)

end Gives

namespace ParseTree

mutual

/-- Only an atom that is a numeral is read as a constant. -/
theorem Expr.reading_numerals (expr : Expr) (t : ScopeTable) (scopes : List ScopeId) :
    Gives Term.Numerals (expr.reading (t.operandIn scopes)) := by
  obtain ⟨first, rest⟩ := expr
  rw [Expr.reading]
  exact (Factor.reading_numerals first t scopes).bind fun _ hvalue =>
    termsReading_numerals rest t scopes hvalue

theorem termsReading_numerals (rest : List (AddOp × Factor)) (t : ScopeTable)
    (scopes : List ScopeId) {value : Term} (h : value.Numerals) :
    Gives Term.Numerals (termsReading (t.operandIn scopes) value rest) := by
  match rest with
  | [] => exact gives_ok h
  | (op, factor) :: rest =>
    rw [termsReading_cons]
    exact (Factor.reading_numerals factor t scopes).bind fun _ hrhs =>
      termsReading_numerals rest t scopes ⟨h, hrhs⟩

theorem Factor.reading_numerals (factor : Factor) (t : ScopeTable) (scopes : List ScopeId) :
    Gives Term.Numerals (factor.reading (t.operandIn scopes)) := by
  obtain ⟨first, rest⟩ := factor
  rw [Factor.reading]
  exact (Primary.reading_numerals first t scopes).bind fun _ hvalue =>
    productsReading_numerals rest t scopes hvalue

theorem productsReading_numerals (rest : List (MulOp × Primary)) (t : ScopeTable)
    (scopes : List ScopeId) {value : Term} (h : value.Numerals) :
    Gives Term.Numerals (productsReading (t.operandIn scopes) value rest) := by
  match rest with
  | [] => exact gives_ok h
  | (op, primary) :: rest =>
    rw [productsReading_cons]
    exact (Primary.reading_numerals primary t scopes).bind fun _ hrhs =>
      productsReading_numerals rest t scopes ⟨h, hrhs⟩

theorem Primary.reading_numerals (primary : Primary) (t : ScopeTable) (scopes : List ScopeId) :
    Gives Term.Numerals (primary.reading (t.operandIn scopes)) := by
  match primary with
  | .atom text =>
    rw [Primary.reading, ScopeTable.operandIn]
    split
    case isTrue hnumeral => exact gives_ok hnumeral
    case isFalse => exact (gives_any _).bind fun _ _ => gives_ok trivial
  | .group inner => exact Expr.reading_numerals inner t scopes

end

/-- The text of a string declaration is no constant. -/
theorem treeNumerals_strings (decls : List Decl) : TreeNumerals (decls.flatMap Decl.strings) := by
  intro statement hs
  obtain ⟨decl, -, hd⟩ := List.mem_flatMap.mp hs
  cases decl with
  | var ty idents => cases hd
  | string ident literal => rw [List.mem_singleton.mp hd]; trivial

/-- Statements after string declarations. -/
theorem TreeNumerals.after_strings {statements : List Statement} (h : TreeNumerals statements)
    (decls : List Decl) : TreeNumerals (decls.flatMap Decl.strings ++ statements) :=
  List.forall_mem_append.mpr ⟨treeNumerals_strings decls, h⟩

mutual

/-- The assigned values of a statement come from its expressions. -/
theorem Stmt.lexical_numerals (stmt : Stmt) (t : ScopeTable) (scopes : List ScopeId) (next : Nat) :
    Gives TreeNumerals (stmt.lexical t scopes next) := by
  match stmt with
  | .assign target expr =>
    rw [Stmt.lexical]
    refine (gives_any _).bind fun _ _ => ?_
    refine (Expr.reading_numerals expr t scopes).bind fun _ hvalue => gives_ok ?_
    exact List.forall_mem_singleton.mpr hvalue
  | .read idents =>
    rw [Stmt.lexical]
    exact (gives_any _).bind fun _ _ => gives_ok (List.forall_mem_singleton.mpr trivial)
  | .write idents =>
    rw [Stmt.lexical]
    exact (gives_any _).bind fun _ _ => gives_ok (List.forall_mem_singleton.mpr trivial)
  | .return _ => exact gives_ok fun _ h => absurd h List.not_mem_nil
  | .ifThen _ decls body elsePart =>
    rw [Stmt.lexical]
    refine (stmtsLexical_numerals body t _ _).bind fun inner hinner => ?_
    refine (elseLexical_numerals elsePart t _ _).bind fun other hother => gives_ok ?_
    exact List.forall_mem_append.mpr ⟨TreeNumerals.after_strings hinner decls, hother⟩
  | .while _ decls body =>
    rw [Stmt.lexical]
    exact (stmtsLexical_numerals body t _ _).bind fun _ hinner =>
      gives_ok (TreeNumerals.after_strings hinner decls)

theorem stmtsLexical_numerals (stmts : List Stmt) (t : ScopeTable) (scopes : List ScopeId)
    (next : Nat) : Gives TreeNumerals (stmtsLexical t scopes next stmts) := by
  match stmts with
  | [] => exact gives_ok fun _ h => absurd h List.not_mem_nil
  | stmt :: rest =>
    rw [stmtsLexical]
    refine (Stmt.lexical_numerals stmt t _ _).bind fun first hfirst => ?_
    refine (stmtsLexical_numerals rest t _ _).bind fun others hothers => gives_ok ?_
    exact List.forall_mem_append.mpr ⟨hfirst, hothers⟩

theorem elseLexical_numerals (elsePart : Option ElsePart) (t : ScopeTable) (scopes : List ScopeId)
    (next : Nat) : Gives TreeNumerals (elseLexical t scopes next elsePart) := by
  match elsePart with
  | none => exact gives_ok fun _ h => absurd h List.not_mem_nil
  | some ⟨decls, body⟩ =>
    rw [elseLexical]
    exact (stmtsLexical_numerals body t _ _).bind fun _ hinner =>
      gives_ok (TreeNumerals.after_strings hinner decls)

end

theorem funcsLexical_numerals (funcs : List FuncDecl) (t : ScopeTable) (next : Nat) :
    Gives TreeNumerals (funcsLexical t next funcs) := by
  induction funcs generalizing next with
  | nil => exact gives_ok fun _ h => absurd h List.not_mem_nil
  | cons func rest ih =>
    have hfunc : Gives TreeNumerals (func.lexical t next) :=
      (stmtsLexical_numerals func.body t _ _).bind fun _ hinner =>
        gives_ok (TreeNumerals.after_strings hinner func.decls)
    rw [funcsLexical]
    refine hfunc.bind fun first hfirst => (ih _).bind fun others hothers => gives_ok ?_
    exact List.forall_mem_append.mpr ⟨hfirst, hothers⟩

/-- The constants of statement trees are numerals. -/
theorem Program.statements_numerals {program : Program} {t : ScopeTable}
    {statements : List Statement} (h : program.statements t = .ok statements) :
    TreeNumerals statements := by
  refine Gives.bind (funcsLexical_numerals program.funcs t 1) (fun inner hinner => ?_) statements
    (lexical_of_statements h)
  exact gives_ok (TreeNumerals.after_strings hinner program.decls)

end ParseTree

/-! ## Operands of three-address code -/

namespace ThreeAddress

/-- The operands of an instruction. -/
def Instr.operands : Instr → List Operand
  | .store _ src dst => [src, dst]
  | .binary _ _ lhs rhs dst => [lhs, rhs, .temp dst]
  | .read _ ident => [.var ident]
  | .write _ ident => [.var ident]
  | _ => []

/-- The temporaries that an instruction mentions are among its operands. -/
theorem Instr.temp_mem_operands {i : Instr} {t : Temp} : .temp t ∈ i.operands ↔ t ∈ i.mentioned := by
  have htemp : ∀ o : Operand, t ∈ o.mentioned ↔ .temp t = o := by
    intro o
    cases o <;> simp [Operand.mentioned]
  cases i <;> simp [Instr.operands, Instr.mentioned, htemp]

/-- The operand is a numeral if it is a constant. -/
def Operand.Numeral (o : Operand) : Prop :=
  ∀ text, o = .literal text → Text.isNumeral text

theorem Operand.Numeral.temp (t : Temp) : (Operand.temp t).Numeral :=
  fun _ he => nomatch he

theorem Operand.Numeral.var (x : String) : (Operand.var x).Numeral :=
  fun _ he => nomatch he

/-- The constants of the instructions are numerals. -/
def Numerals (instrs : List Instr) : Prop :=
  ∀ i ∈ instrs, ∀ o ∈ i.operands, o.Numeral

variable {a b : List Instr} {v : Value}

theorem numerals_nil : Numerals [] :=
  fun _ hi => absurd hi List.not_mem_nil

theorem numerals_single {i : Instr} (h : ∀ o ∈ i.operands, o.Numeral) : Numerals [i] :=
  List.forall_mem_singleton.mpr h

theorem Numerals.append (ha : Numerals a) (hb : Numerals b) : Numerals (a ++ b) :=
  List.forall_mem_append.mpr ⟨ha, hb⟩

/-- A copy has the constants of its two ends. -/
theorem numerals_store {src dst : Operand} (ty : Ty) (hs : src.Numeral) (hd : dst.Numeral) :
    Numerals [.store ty src dst] := by
  refine numerals_single ?_
  simp [Instr.operands, hs, hd]

/-- The constants in the code of the value are numerals, and so is the value if it is a constant. -/
structure Value.Numerals (v : Value) : Prop where
  code : ThreeAddress.Numerals v.code
  location : v.location.Numeral

/-- Loading an operand brings in no constant. -/
theorem Value.Numerals.ready (h : v.Numerals) (ty : Ty) (dst : Nat) :
    ThreeAddress.Numerals (v.ready ty dst).1 ∧ (v.ready ty dst).2.1.Numeral := by
  obtain ⟨code, location, _ | _⟩ := v
  case typed => exact ⟨numerals_nil, h.location⟩
  case constant => exact ⟨numerals_store ty h.location (.temp _), .temp _⟩

/-- An operation has the constants of its operands. -/
theorem applyOp_numerals {op : BinOp} {l r : Value} {n n' : Nat} (hl : l.Numerals)
    (hr : r.Numerals) (h : applyOp op l r n = .ok (v, n')) : v.Numerals := by
  obtain ⟨ty, -, -, -, rfl⟩ := applyOp_ok h
  obtain ⟨hloadl, hleft⟩ := hl.ready ty (n + 1)
  obtain ⟨hloadr, hright⟩ := hr.ready ty (l.ready ty (n + 1)).2.2
  have hoperation : Numerals [.binary op ty (l.ready ty (n + 1)).2.1
      (r.ready ty (l.ready ty (n + 1)).2.2).2.1 ⟨n'⟩] := by
    refine numerals_single ?_
    simp [Instr.operands, hleft, hright, Operand.Numeral.temp]
  exact ⟨hl.code.append (hr.code.append (hloadl.append (hloadr.append hoperation))),
    .temp _⟩

end ThreeAddress

/-- Lowering a value brings in no constant. -/
theorem Term.lower_numerals {t : Term} {n n' : Nat} {v : ThreeAddress.Value} (ht : t.Numerals)
    (h : t.lower n = .ok (v, n')) : v.Numerals := by
  induction t generalizing n n' v with
  | literal text =>
    cases h
    refine ⟨ThreeAddress.numerals_nil, ?_⟩
    rintro _ ⟨rfl⟩
    exact ht
  | var v => cases h; exact ⟨ThreeAddress.numerals_nil, .var _⟩
  | binary op lhs rhs ihl ihr =>
    obtain ⟨l, n₁, r, n₂, hl, hr, hop⟩ := lower_binary_ok h
    exact ThreeAddress.applyOp_numerals (ihl ht.1 hl) (ihr ht.2 hr) hop

namespace ThreeAddress

/-- Storing a value brings in no constant. -/
theorem storeValue_numerals {v : Value} {target : VarRef} {n n' : Nat} {instrs : List Instr}
    (h : v.Numerals) (hstore : storeValue target v n = .ok (instrs, n')) : Numerals instrs := by
  have hdst : (Operand.var target.ident).Numeral := .var _
  obtain ⟨ty, -, -, -, rfl⟩ | ⟨-, ty, -, hvia⟩ := storeValue_ok hstore
  · exact h.code.append (numerals_store ty h.location hdst)
  · cases hvia
    exact (numerals_store ty h.location (.temp _)).append (numerals_store ty (.temp _) hdst)

theorem readVars_numerals {vars : List VarRef} {instrs : List Instr} (h : readVars vars = .ok instrs) :
    Numerals instrs := by
  induction vars generalizing instrs with
  | nil => cases h; exact numerals_nil
  | cons v rest ih =>
    rw [readVars] at h
    split at h
    · cases h
    · cases hr : readVars rest with
      | error e => rw [hr] at h; cases h
      | ok more =>
        rw [hr] at h
        cases h
        have hone : Numerals [.read v.ty v.ident] :=
          numerals_single (List.forall_mem_singleton.mpr (.var _))
        exact hone.append (ih hr)

theorem lowerStatement_numerals {statement : Statement} {n n' : Nat} {instrs : List Instr}
    (hs : statement.Numerals) (h : lowerStatement statement n = .ok (instrs, n')) :
    Numerals instrs := by
  cases statement with
  | assign target value =>
    obtain ⟨v, m, hv, hstore⟩ := lowerStatement_assign_ok h
    exact storeValue_numerals (Term.lower_numerals hs hv) hstore
  | stringDecl ident literal => cases h; exact numerals_nil
  | read vars => exact readVars_numerals (lowerStatement_read_ok h).1
  | write vars =>
    cases h
    refine List.forall_mem_map.mpr fun v _ => ?_
    exact List.forall_mem_singleton.mpr (.var _)

theorem lowerStatements_numerals {statements : List Statement} {n n' : Nat} {instrs : List Instr}
    (hs : TreeNumerals statements) (h : lowerStatements statements n = .ok (instrs, n')) :
    Numerals instrs := by
  induction statements generalizing n instrs with
  | nil => cases h; exact numerals_nil
  | cons statement rest ih =>
    obtain ⟨first, n₁, more, hf, hr, rfl⟩ := lowerStatements_cons h
    obtain ⟨hfirst, hrest⟩ := List.forall_mem_cons.mp hs
    exact (lowerStatement_numerals hfirst hf).append (ih hrest hr)

/-- The constants of three-address code are those of the statements. -/
theorem Code.ofStatements_numerals {statements : List Statement} {code : Code}
    (hs : TreeNumerals statements) (h : Code.ofStatements statements = .ok code) :
    Numerals code.instrs := by
  obtain ⟨body, hbody, hinstrs⟩ := Code.ofStatements_ok h
  have hquiet : ∀ i : Instr, i.operands = [] → Numerals [i] := fun i hi =>
    numerals_single (hi ▸ List.forall_mem_nil _)
  have hentry := (hquiet (.label "main") rfl).append (hquiet .link rfl)
  rw [hinstrs]
  exact (hentry.append (lowerStatements_numerals hs hbody)).append (hquiet .ret rfl)

end ThreeAddress

/-! ## Operands of target programs -/

namespace Target

/-- The operands of an instruction, the name that it declares included. -/
def Instr.operands : Instr → List Operand
  | .var ident => [.var ident]
  | .str ident _ => [.var ident]
  | .move src dst => [src, dst]
  | .arith _ _ src dst => [src, .register dst]
  | .read _ ident => [.var ident]
  | .write _ ident => [.var ident]
  | .halt => []

/-- The operands of a program. -/
def Program.operands (program : Program) : List Operand :=
  program.instrs.flatMap Instr.operands

/-- A name among the operands is declared by the instruction or worked on by it. -/
theorem Instr.var_mem_operands {i : Instr} {x : String} :
    .var x ∈ i.operands ↔ i.declared? = some x ∨ x ∈ i.names := by
  have hname : ∀ o : Operand, .var x = o ↔ x ∈ o.names := by
    intro o
    cases o <;> simp [Operand.names]
  cases i <;> simp [Instr.operands, Instr.declared?, Instr.names, hname, Operand.names, eq_comm]

theorem operands_declaration (s : Symbol) : (declaration s).operands = [.var s.ident] := by
  obtain ⟨ident, _ | _⟩ := s <;> rfl

/-- The operands of the selected instructions are those of the instruction, renamed. -/
theorem mem_operands_image {ρ : ThreeAddress.Temp → Register} {i : ThreeAddress.Instr}
    (hi : i.Numeric) {o : Operand} :
    o ∈ (image ρ i).flatMap Instr.operands ↔ ∃ o' ∈ i.operands, renamed ρ o' = o := by
  cases i with
  | binary op ty lhs rhs dst =>
    obtain ⟨num, hnum⟩ : ∃ num, ty.toNum? = some num := by
      cases ty with
      | int => exact ⟨.int, rfl⟩
      | float => exact ⟨.float, rfl⟩
      | string => exact absurd rfl hi
    simp only [image, hnum, ThreeAddress.Instr.operands, Instr.operands, List.flatMap_cons,
      List.flatMap_nil, List.mem_append, List.mem_cons, List.not_mem_nil]
    grind [renamed]
  | read ty ident =>
    cases ty with
    | string => exact absurd rfl hi
    | _ => simp [image, Ty.toNum?, Instr.operands, ThreeAddress.Instr.operands, renamed, eq_comm]
  | _ => simp [image, Instr.operands, ThreeAddress.Instr.operands, renamed, eq_comm]

end Target

namespace Compilation

open Target

variable {program : ParseTree.Program} (c : Compilation program)

/-- The registers in use are those that temporaries have been given. -/
theorem registers_eq : c.target.registers = (registersOf c.code).count := by
  have h := c.target_eq
  rw [ParseTree.Program.target, Program.ofCode_eq c.table c.numeric] at h
  rw [← Except.ok.inj h]

/-- An operand of the program is a declared name, or the renaming of an operand of the code. -/
theorem mem_operands {o : Operand} :
    o ∈ c.target.operands ↔ (∃ symbol ∈ c.table.storage, .var symbol.ident = o) ∨
      ∃ i ∈ c.code.instrs, ∃ o' ∈ i.operands, renamed (registersOf c.code).rename o' = o := by
  have hheader : o ∈ (header c.table).flatMap Instr.operands ↔
      ∃ symbol ∈ c.table.storage, .var symbol.ident = o := by
    simp [header, operands_declaration, eq_comm]
  have hbody : o ∈ c.body.flatMap Instr.operands ↔
      ∃ i ∈ c.code.instrs, ∃ o' ∈ i.operands, renamed (registersOf c.code).rename o' = o := by
    rw [body, List.flatMap_assoc, List.mem_flatMap]
    exact exists_congr fun i => and_congr_right fun hi => mem_operands_image (c.numeric i hi)
  rw [Program.operands, instrs_eq, List.flatMap_append, List.flatMap_append, List.mem_append,
    List.mem_append, hheader, hbody]
  simp [Instr.operands]

/-- The constants of a compiled program are numerals. -/
theorem isNumeral_of_immediate {text : String} (h : .immediate text ∈ c.target.operands) :
    Text.isNumeral text := by
  obtain ⟨symbol, -, he⟩ | ⟨i, hi, o, ho, he⟩ := c.mem_operands.mp h
  · cases he
  · have hnumerals := ThreeAddress.Code.ofStatements_numerals
      (ParseTree.Program.statements_numerals c.statements_eq) c.code_eq
    refine hnumerals i hi o ho text ?_
    cases o <;> cases he
    rfl

/-- The names of a compiled program are the declared ones. -/
theorem var_mem_operands {x : String} :
    .var x ∈ c.target.operands ↔ ∃ symbol ∈ c.table.allSymbols, symbol.ident = x := by
  have hstorage : ∀ x, x ∈ c.table.storage.map Symbol.ident ↔
      ∃ symbol ∈ c.table.allSymbols, symbol.ident = x := by
    intro x
    rw [ScopeTable.map_ident_storage, List.mem_eraseDups, List.mem_map]
  constructor
  · intro h
    obtain ⟨i, hi, hx⟩ := List.mem_flatMap.mp h
    rw [instrs_eq, List.mem_append, List.mem_append] at hi
    obtain (hi | hi) | hi := hi
    · obtain ⟨first, hfirst, rfl⟩ := List.mem_map.mp hi
      rw [operands_declaration, List.mem_singleton] at hx
      cases hx
      exact (hstorage _).mp (List.mem_map_of_mem hfirst)
    · rw [Instr.var_mem_operands, (c.declared?_body hi).1] at hx
      exact c.exists_symbol hi (hx.resolve_left nofun)
    · rw [List.mem_singleton.mp hi] at hx
      cases hx
  · intro h
    obtain ⟨first, hfirst, hident⟩ := List.mem_map.mp ((hstorage x).mpr h)
    exact c.mem_operands.mpr (.inl ⟨first, hfirst, congrArg Operand.var hident⟩)

/-- The registers of a compiled program are numbered from 1, without a gap. -/
theorem register_mem_operands {r : Register} :
    .register r ∈ c.target.operands ↔ 1 ≤ r.number ∧ r.number ≤ c.target.registers := by
  have hnumbered := registersOf_numbered c.code
  rw [mem_operands, registers_eq]
  constructor
  · rintro (⟨symbol, -, he⟩ | ⟨i, hi, o, ho, he⟩)
    · cases he
    · cases o with
      | temp t =>
        cases he
        refine hnumbered.range t _ ?_
        refine Registers.find?_assignAll_of_mem ?_ .empty
        exact List.mem_flatMap.mpr ⟨i, hi, ThreeAddress.Instr.temp_mem_operands.mp ho⟩
      | var x => cases he
      | literal text => cases he
  · rintro ⟨hpos, hle⟩
    obtain ⟨t, ht⟩ := hnumbered.surjective r.number hpos hle
    obtain ⟨i, hi, hmem⟩ := List.mem_flatMap.mp (mem_of_find?_registersOf ht)
    refine .inr ⟨i, hi, .temp t, ThreeAddress.Instr.temp_mem_operands.mpr hmem, ?_⟩
    rw [renamed, Registers.rename, ht]
    rfl

end Compilation

end TinyGen
