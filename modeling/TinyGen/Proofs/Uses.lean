import TinyGen.Proofs.LexicalScoping

/-!
# Uses of names

`Program.uses` lists the names that a program needs declared, in the order of the walk, each with the
scopes in which it is looked up: targets of assignments, names in assigned values, and names that are
read or written.

`Program.statements_lexical` is the main statement about statement trees: they are those of
`Program.lexical`, and building them fails exactly at the first use of a name that is not declared.
Conditions and returned values do not matter.
-/

namespace TinyGen

/-- A name that has to be declared, and the scopes that enclose it, the innermost first. -/
structure Use where
  scopes : List ScopeId
  ident : String
  deriving DecidableEq, Repr

/-- Whether none of the enclosing scopes declares the name. -/
def Use.undeclaredIn (t : ScopeTable) (use : Use) : Bool :=
  (t.innermost? use.ident use.scopes).isNone

/-- The uses of names that `scopes` enclose. -/
def usesIn (scopes : List ScopeId) (idents : List String) : List Use :=
  idents.map (Use.mk scopes)

namespace ParseTree

mutual

/-- The names in an expression. -/
def Expr.names : Expr → List String
  | ⟨first, rest⟩ => first.names ++ termNames rest

/-- The names in factors after the first. -/
def termNames : List (AddOp × Factor) → List String
  | [] => []
  | (_, factor) :: rest => factor.names ++ termNames rest

/-- The names in a factor. -/
def Factor.names : Factor → List String
  | ⟨first, rest⟩ => first.names ++ productNames rest

/-- The names in primaries after the first. -/
def productNames : List (MulOp × Primary) → List String
  | [] => []
  | (_, primary) :: rest => primary.names ++ productNames rest

/-- The names in a primary. A numeral is not a name. -/
def Primary.names : Primary → List String
  | .atom text => if Text.isNumeral text then [] else [text]
  | .group inner => inner.names

end

mutual

/-- The uses in a statement that `scopes` enclose, where `next` is the number of the first block. -/
def Stmt.uses (scopes : List ScopeId) (next : Nat) : Stmt → List Use
  | .assign target expr => usesIn scopes (target :: expr.names)
  | .read idents => usesIn scopes idents
  | .write idents => usesIn scopes idents
  | .return _ => []
  | .ifThen _ _ body elsePart =>
    stmtUses (.block next :: scopes) (next + 1) body ++
      elseUses scopes (next + 1 + stmtBlocks body) elsePart
  | .while _ _ body => stmtUses (.block next :: scopes) (next + 1) body

/-- The uses in statements. -/
def stmtUses (scopes : List ScopeId) (next : Nat) : List Stmt → List Use
  | [] => []
  | stmt :: rest => stmt.uses scopes next ++ stmtUses scopes (next + stmt.blockCount) rest

/-- The uses in the else part of an `if` that `scopes` enclose. -/
def elseUses (scopes : List ScopeId) (next : Nat) : Option ElsePart → List Use
  | none => []
  | some ⟨_, body⟩ => stmtUses (.block next :: scopes) (next + 1) body

end

/-- The uses in procedures. -/
def funcUses (next : Nat) : List FuncDecl → List Use
  | [] => []
  | func :: rest =>
    stmtUses [.procedure func.ident, .global] next func.body ++
      funcUses (next + stmtBlocks func.body) rest

/-- The uses in a program, in the order of the walk. -/
def Program.uses (program : Program) : List Use :=
  funcUses 1 program.funcs

end ParseTree

/-! ## Failing at the first undeclared name -/

section FailsAt

variable {α β : Type} {t : ScopeTable} {a b : List Use}

/-- `x` fails at the first of `uses` that is not declared, and gives a value if all are. -/
def FailsAt (t : ScopeTable) (uses : List Use) (x : Except Error α) : Prop :=
  match uses.find? (·.undeclaredIn t) with
  | some use => x = .error (.undeclaredVariable use.ident)
  | none => ∃ value, x = .ok value

/-- A value without uses does not fail. -/
theorem failsAt_ok (t : ScopeTable) (value : α) : FailsAt t [] (.ok value) :=
  ⟨value, rfl⟩

/-- Two computations, one after the other, have the uses of the first and then those of the second. -/
theorem FailsAt.bind {x : Except Error α} {y : α → Except Error β} (hx : FailsAt t a x)
    (hy : ∀ value, FailsAt t b (y value)) : FailsAt t (a ++ b) (x >>= y) := by
  rw [FailsAt] at hx
  rw [FailsAt, List.find?_append]
  cases ha : a.find? (·.undeclaredIn t) with
  | some use =>
    rw [ha] at hx
    rw [hx]
    rfl
  | none =>
    rw [ha] at hx
    obtain ⟨value, rfl⟩ := hx
    exact hy value

theorem FailsAt.bind_pure {x : Except Error α} (h : FailsAt t a x) (f : α → β) :
    FailsAt t a (x >>= fun value => pure (f value)) := by
  have := h.bind fun value => failsAt_ok t (f value)
  rwa [List.append_nil] at this

/-- The only error is that of the first undeclared use. -/
theorem FailsAt.error_iff {x : Except Error α} {e : Error} (h : FailsAt t a x) :
    x = .error e ↔
      ∃ use, a.find? (·.undeclaredIn t) = some use ∧ e = .undeclaredVariable use.ident := by
  rw [FailsAt] at h
  cases ha : a.find? (·.undeclaredIn t) with
  | some use =>
    rw [ha] at h
    simp [h, eq_comm]
  | none =>
    rw [ha] at h
    obtain ⟨value, rfl⟩ := h
    simp

/-- There is a first undeclared use if there is any. -/
theorem exists_find?_undeclaredIn_iff :
    (∃ use, a.find? (·.undeclaredIn t) = some use) ↔
      ∃ use ∈ a, t.innermost? use.ident use.scopes = none := by
  rw [← Option.isSome_iff_exists, List.find?_isSome]
  simp only [Use.undeclaredIn, Option.isNone_iff_eq_none]

/-- Resolving a name fails if none of the enclosing scopes declares it. -/
theorem resolveIn_failsAt (t : ScopeTable) (scopes : List ScopeId) (ident : String) :
    FailsAt t (usesIn scopes [ident]) (t.resolveIn scopes ident) := by
  simp only [FailsAt, usesIn, List.map_cons, List.map_nil, List.find?_singleton, Use.undeclaredIn,
    ScopeTable.resolveIn]
  cases t.innermost? ident scopes with
  | none => rfl
  | some symbol => exact ⟨_, rfl⟩

theorem usesIn_append (scopes : List ScopeId) (xs ys : List String) :
    usesIn scopes (xs ++ ys) = usesIn scopes xs ++ usesIn scopes ys :=
  List.map_append

/-- Names in a list are resolved from the left. -/
theorem mapM_resolveIn_failsAt (t : ScopeTable) (scopes : List ScopeId) (idents : List String) :
    FailsAt t (usesIn scopes idents) (idents.mapM (t.resolveIn scopes)) := by
  induction idents with
  | nil => exact failsAt_ok t []
  | cons ident rest ih =>
    rw [List.mapM_cons]
    exact (resolveIn_failsAt t scopes ident).bind fun v => ih.bind_pure fun vs => v :: vs

end FailsAt

namespace ParseTree

mutual

/-- An expression uses its names from left to right, as it is read. -/
theorem Expr.reading_failsAt (expr : Expr) (t : ScopeTable) (scopes : List ScopeId) :
    FailsAt t (usesIn scopes expr.names) (expr.reading (t.operandIn scopes)) := by
  obtain ⟨first, rest⟩ := expr
  rw [Expr.names, Expr.reading, usesIn_append]
  exact (Factor.reading_failsAt first t scopes).bind fun value =>
    termsReading_failsAt rest value t scopes

theorem termsReading_failsAt (rest : List (AddOp × Factor)) (value : Term) (t : ScopeTable)
    (scopes : List ScopeId) :
    FailsAt t (usesIn scopes (termNames rest)) (termsReading (t.operandIn scopes) value rest) := by
  match rest with
  | [] => exact failsAt_ok t value
  | (op, factor) :: rest =>
    rw [termNames, termsReading_cons, usesIn_append]
    exact (Factor.reading_failsAt factor t scopes).bind fun rhs =>
      termsReading_failsAt rest (.binary op.toBinOp value rhs) t scopes

theorem Factor.reading_failsAt (factor : Factor) (t : ScopeTable) (scopes : List ScopeId) :
    FailsAt t (usesIn scopes factor.names) (factor.reading (t.operandIn scopes)) := by
  obtain ⟨first, rest⟩ := factor
  rw [Factor.names, Factor.reading, usesIn_append]
  exact (Primary.reading_failsAt first t scopes).bind fun value =>
    productsReading_failsAt rest value t scopes

theorem productsReading_failsAt (rest : List (MulOp × Primary)) (value : Term) (t : ScopeTable)
    (scopes : List ScopeId) :
    FailsAt t (usesIn scopes (productNames rest))
      (productsReading (t.operandIn scopes) value rest) := by
  match rest with
  | [] => exact failsAt_ok t value
  | (op, primary) :: rest =>
    rw [productNames, productsReading_cons, usesIn_append]
    exact (Primary.reading_failsAt primary t scopes).bind fun rhs =>
      productsReading_failsAt rest (.binary op.toBinOp value rhs) t scopes

theorem Primary.reading_failsAt (primary : Primary) (t : ScopeTable) (scopes : List ScopeId) :
    FailsAt t (usesIn scopes primary.names) (primary.reading (t.operandIn scopes)) := by
  match primary with
  | .atom text =>
    rw [Primary.names, Primary.reading, ScopeTable.operandIn]
    split
    case isTrue => exact failsAt_ok t _
    case isFalse => exact (resolveIn_failsAt t scopes text).bind_pure Term.var
  | .group inner => exact Expr.reading_failsAt inner t scopes

end

mutual

/-- A statement is resolved at the uses in it, up to the first that is not declared. -/
theorem Stmt.lexical_failsAt (stmt : Stmt) (t : ScopeTable) (scopes : List ScopeId) (next : Nat) :
    FailsAt t (stmt.uses scopes next) (stmt.lexical t scopes next) := by
  match stmt with
  | .assign target expr =>
    rw [Stmt.lexical]
    exact (resolveIn_failsAt t scopes target).bind fun v =>
      (Expr.reading_failsAt expr t scopes).bind_pure _
  | .read idents => exact (mapM_resolveIn_failsAt t scopes idents).bind_pure _
  | .write idents => exact (mapM_resolveIn_failsAt t scopes idents).bind_pure _
  | .return _ => exact failsAt_ok t []
  | .ifThen _ decls body elsePart =>
    rw [Stmt.uses, Stmt.lexical]
    exact (stmtsLexical_failsAt body t _ _).bind fun inner =>
      (elseLexical_failsAt elsePart t _ _).bind_pure _
  | .while _ decls body =>
    rw [Stmt.uses, Stmt.lexical]
    exact (stmtsLexical_failsAt body t _ _).bind_pure _

theorem stmtsLexical_failsAt (stmts : List Stmt) (t : ScopeTable) (scopes : List ScopeId)
    (next : Nat) : FailsAt t (stmtUses scopes next stmts) (stmtsLexical t scopes next stmts) := by
  match stmts with
  | [] => exact failsAt_ok t []
  | stmt :: rest =>
    rw [stmtUses, stmtsLexical]
    exact (Stmt.lexical_failsAt stmt t _ _).bind fun first =>
      (stmtsLexical_failsAt rest t _ _).bind_pure _

theorem elseLexical_failsAt (elsePart : Option ElsePart) (t : ScopeTable) (scopes : List ScopeId)
    (next : Nat) : FailsAt t (elseUses scopes next elsePart) (elseLexical t scopes next elsePart) := by
  match elsePart with
  | none => exact failsAt_ok t []
  | some ⟨_, body⟩ =>
    rw [elseUses, elseLexical]
    exact (stmtsLexical_failsAt body t _ _).bind_pure _

end

/-- Procedures are resolved one after another, each after the blocks of those before it. -/
theorem funcsLexical_failsAt (funcs : List FuncDecl) (t : ScopeTable) (next : Nat) :
    FailsAt t (funcUses next funcs) (funcsLexical t next funcs) := by
  induction funcs generalizing next with
  | nil => exact failsAt_ok t []
  | cons func rest ih =>
    rw [funcUses, funcsLexical]
    exact ((stmtsLexical_failsAt func.body t _ _).bind_pure _).bind fun first =>
      (ih _).bind_pure _

/-- The trees of a program fail at its first undeclared use, and are there if there is none. -/
theorem Program.lexical_failsAt (program : Program) (t : ScopeTable) :
    FailsAt t program.uses (program.lexical t) :=
  (funcsLexical_failsAt program.funcs t 1).bind_pure _

/-! ## Conditions and returned values -/

section Tests

variable (test : Cond → Cond) (value : Expr → Expr)

mutual

/-- The statement with its conditions and returned values replaced. -/
def Stmt.mapTests : Stmt → Stmt
  | .assign target expr => .assign target expr
  | .read idents => .read idents
  | .write idents => .write idents
  | .return expr => .return (value expr)
  | .ifThen cond decls body elsePart =>
    .ifThen (test cond) decls (stmtsMapTests body) (elseMapTests elsePart)
  | .while cond decls body => .while (test cond) decls (stmtsMapTests body)

/-- Statements with their conditions and returned values replaced. -/
def stmtsMapTests : List Stmt → List Stmt
  | [] => []
  | stmt :: rest => stmt.mapTests :: stmtsMapTests rest

/-- The else part of an `if` with its conditions and returned values replaced. -/
def elseMapTests : Option ElsePart → Option ElsePart
  | none => none
  | some ⟨decls, body⟩ => some ⟨decls, stmtsMapTests body⟩

end

/-- The program with its conditions and returned values replaced. -/
def Program.mapTests (program : Program) : Program :=
  { program with
    funcs := program.funcs.map fun func => { func with body := stmtsMapTests test value func.body } }

mutual

/-- Conditions and returned values open no block. -/
theorem Stmt.blockCount_mapTests (stmt : Stmt) :
    (stmt.mapTests test value).blockCount = stmt.blockCount := by
  match stmt with
  | .assign _ _ => rfl
  | .read _ => rfl
  | .write _ => rfl
  | .return _ => rfl
  | .ifThen _ _ body elsePart =>
    rw [Stmt.mapTests, Stmt.blockCount, Stmt.blockCount, stmtBlocks_mapTests body,
      elseBlocks_mapTests elsePart]
  | .while _ _ body =>
    rw [Stmt.mapTests, Stmt.blockCount, Stmt.blockCount, stmtBlocks_mapTests body]

theorem stmtBlocks_mapTests (stmts : List Stmt) :
    stmtBlocks (stmtsMapTests test value stmts) = stmtBlocks stmts := by
  match stmts with
  | [] => rfl
  | stmt :: rest =>
    rw [stmtsMapTests, stmtBlocks, stmtBlocks, Stmt.blockCount_mapTests stmt,
      stmtBlocks_mapTests rest]

theorem elseBlocks_mapTests (elsePart : Option ElsePart) :
    elseBlocks (elseMapTests test value elsePart) = elseBlocks elsePart := by
  match elsePart with
  | none => rfl
  | some ⟨_, body⟩ => rw [elseMapTests, elseBlocks, elseBlocks, stmtBlocks_mapTests body]

end

mutual

/-- Conditions and returned values are no part of the trees. -/
theorem Stmt.lexical_mapTests (stmt : Stmt) (t : ScopeTable) (scopes : List ScopeId) (next : Nat) :
    (stmt.mapTests test value).lexical t scopes next = stmt.lexical t scopes next := by
  match stmt with
  | .assign _ _ => rfl
  | .read _ => rfl
  | .write _ => rfl
  | .return _ => rfl
  | .ifThen _ _ body elsePart =>
    rw [Stmt.mapTests, Stmt.lexical, Stmt.lexical, stmtBlocks_mapTests,
      stmtsLexical_mapTests body, elseLexical_mapTests elsePart]
  | .while _ _ body =>
    rw [Stmt.mapTests, Stmt.lexical, Stmt.lexical, stmtsLexical_mapTests body]

theorem stmtsLexical_mapTests (stmts : List Stmt) (t : ScopeTable) (scopes : List ScopeId)
    (next : Nat) :
    stmtsLexical t scopes next (stmtsMapTests test value stmts) =
      stmtsLexical t scopes next stmts := by
  match stmts with
  | [] => rfl
  | stmt :: rest =>
    rw [stmtsMapTests, stmtsLexical, stmtsLexical, Stmt.blockCount_mapTests,
      Stmt.lexical_mapTests stmt, stmtsLexical_mapTests rest]

theorem elseLexical_mapTests (elsePart : Option ElsePart) (t : ScopeTable) (scopes : List ScopeId)
    (next : Nat) :
    elseLexical t scopes next (elseMapTests test value elsePart) =
      elseLexical t scopes next elsePart := by
  match elsePart with
  | none => rfl
  | some ⟨_, body⟩ => rw [elseMapTests, elseLexical, elseLexical, stmtsLexical_mapTests body]

end

/-- The trees of a program do not depend on its conditions and returned values. -/
theorem Program.lexical_mapTests (program : Program) (t : ScopeTable) :
    (program.mapTests test value).lexical t = program.lexical t := by
  have hfuncs : ∀ (funcs : List FuncDecl) (next : Nat),
      funcsLexical t next
        (funcs.map fun func => { func with body := stmtsMapTests test value func.body }) =
        funcsLexical t next funcs := by
    intro funcs
    induction funcs with
    | nil => exact fun _ => rfl
    | cons func rest ih =>
      intro next
      rw [List.map_cons, funcsLexical, funcsLexical, FuncDecl.lexical, FuncDecl.lexical,
        stmtsLexical_mapTests, stmtBlocks_mapTests, ih]
  rw [Program.lexical, Program.lexical, Program.mapTests, hfuncs]

end Tests

/-- The statement trees of a program are those of lexical scoping. They are refused exactly if a use
of a name is not declared, and then the first such use is reported. Conditions and returned values
have no effect: a builder without an open assignment is not changed by them, and any others give the
same statement trees. -/
theorem Program.statements_lexical (program : Program) (table : ScopeTable) :
    program.statements table = Fault.lift (program.lexical table) id ∧
    (∀ fault, program.statements table = .error fault ↔
      ∃ use, program.uses.find? (·.undeclaredIn table) = some use ∧
        fault = .error (.undeclaredVariable use.ident)) ∧
    ((∃ fault, program.statements table = .error fault) ↔
      ∃ use ∈ program.uses, table.innermost? use.ident use.scopes = none) ∧
    (∀ test value, (program.mapTests test value).statements table = program.statements table) ∧
    ∀ b : Statement.Builder, b.assign = none →
      (∀ cond : Cond, cond.walk Statement.Builder.raise b = .ok b) ∧
        ∀ expr, (Stmt.return expr).walk Statement.Builder.raise b = .ok b := by
  have herror : ∀ fault, program.statements table = .error fault ↔
      ∃ use, program.uses.find? (·.undeclaredIn table) = some use ∧
        fault = .error (.undeclaredVariable use.ident) := by
    intro fault
    rw [Program.statements_eq, Fault.lift_eq_error_iff]
    constructor
    · rintro ⟨e, he, rfl⟩
      obtain ⟨use, huse, rfl⟩ := (program.lexical_failsAt table).error_iff.mp he
      exact ⟨use, huse, rfl⟩
    · rintro ⟨use, huse, rfl⟩
      exact ⟨_, (program.lexical_failsAt table).error_iff.mpr ⟨use, huse, rfl⟩, rfl⟩
  refine ⟨program.statements_eq table, herror, ?_, fun test value => ?_, fun b hb => ⟨?_, ?_⟩⟩
  -- There is a first undeclared use if there is any.
  · rw [← exists_find?_undeclaredIn_iff]
    constructor
    · rintro ⟨fault, hf⟩
      obtain ⟨use, huse, -⟩ := (herror fault).mp hf
      exact ⟨use, huse⟩
    · rintro ⟨use, huse⟩
      exact ⟨_, (herror _).mpr ⟨use, huse, rfl⟩⟩
  · rw [Program.statements_eq, Program.statements_eq, Program.lexical_mapTests]
  · exact fun cond => Cond.walk_of_inert (Statement.Builder.inert_raise hb) cond
  · intro expr
    rw [Stmt.walk]
    exact Expr.walk_of_inert (Statement.Builder.inert_raise hb) expr

/-- A branch of an `if` declares a string and hides a variable. The else part sees neither: a write of
the string fails there, and without it the hidden variable is the outer one. -/
theorem Program.statements_else_part :
    let atom (text : String) : Factor := ⟨.atom text, []⟩
    let sum : Expr := ⟨atom "a", [(.add, atom "1")]⟩
    let product : Expr := ⟨⟨.atom "2", [(.mul, .group ⟨atom "a", [(.sub, atom "3")]⟩)]⟩, []⟩
    let cond : Cond := ⟨⟨atom "unknown", []⟩, .less, ⟨atom "1", []⟩⟩
    let branch (last : List Stmt) : Stmt :=
      .ifThen cond [.var .float ["a"], .string "s" "hi"] [.assign "a" sum, .write ["s"]]
        (some ⟨[], .assign "a" product :: last⟩)
    let program (last : List Stmt) : Program :=
      ⟨"p", [], [⟨"main", [], [.var .int ["a"]], [branch last]⟩]⟩
    let table : ScopeTable :=
      ⟨[(.global, []), (.procedure "main", [⟨"a", .num .int⟩]),
        (.block 1, [⟨"a", .num .float⟩, ⟨"s", .str "hi"⟩]), (.block 2, [])]⟩
    (program []).statements table = .ok [.stringDecl "s" "hi",
      .assign ⟨"a", .float⟩ (.binary .add (.var ⟨"a", .float⟩) (.literal "1")),
      .write [⟨"s", .string⟩],
      .assign ⟨"a", .int⟩
        (.binary .mul (.literal "2") (.binary .sub (.var ⟨"a", .int⟩) (.literal "3")))] ∧
    (program [.write ["s"]]).statements table = .error (.error (.undeclaredVariable "s")) ∧
    (Statement.Builder.new table).assign = none ∧
      cond.walk Statement.Builder.raise (.new table) = .ok (.new table) := by
  intro atom sum product cond branch program table
  refine ⟨((program []).statements_lexical table).1.trans rfl, ?_, rfl,
    (((program []).statements_lexical table).2.2.2.2 (.new table) rfl).1 cond⟩
  refine (((program [.write ["s"]]).statements_lexical table).2.1 _).mpr ?_
  exact ⟨⟨[.block 2, .procedure "main", .global], "s"⟩, by decide, rfl⟩

end ParseTree

end TinyGen
