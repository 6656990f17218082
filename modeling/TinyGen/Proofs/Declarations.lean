import TinyGen.Proofs.Bodies
import TinyGen.Proofs.ScopeStack
import TinyGen.Proofs.ScopeTable
import TinyGen.ScopeTable.Builder

/-!
# Declarations and the scope table

`Program.scopeTable_bodies` says that the scope table of a program is made of exactly its bodies, or
that the first repeated declaration among them is reported.

The walk is compared with `declareBodies`, which goes through a list of bodies: a body is checked for
repeated declarations and then put into the table as a whole (`Stmt.walk_bodies`).
-/

namespace TinyGen

open ParseTree

/-! ## Repeated declarations -/

/-- No two of the symbols have the same name and the same type. -/
def Distinct (symbols : List Symbol) : Prop :=
  (symbols.map fun s => (s.ident, s.ty)).Nodup

instance : DecidablePred Distinct :=
  fun symbols => inferInstanceAs (Decidable (symbols.map fun s => (s.ident, s.ty)).Nodup)

/-- The first of `symbols` that has the name and the type of an earlier one is called `ident`. -/
def FirstRepeated (symbols : List Symbol) (ident : String) : Prop :=
  ∃ earlier s later, symbols = earlier ++ s :: later ∧ Distinct earlier ∧
    (∃ r ∈ earlier, r.ident = s.ident ∧ r.ty = s.ty) ∧ s.ident = ident

/-- The first repeated declaration in `bodies` is that of `ident` in the body of `scope`. -/
def FirstRepeatedIn (bodies : List Body) (scope : ScopeId) (ident : String) : Prop :=
  ∃ before symbols after, bodies = before ++ (scope, symbols) :: after ∧
    (∀ body ∈ before, Distinct body.2) ∧ FirstRepeated symbols ident

/-- The first repetition is in the first body, unless that has none. -/
theorem firstRepeatedIn_cons_iff {id scope : ScopeId} {symbols : List Symbol} {rest : List Body}
    {ident : String} :
    FirstRepeatedIn ((id, symbols) :: rest) scope ident ↔
      scope = id ∧ FirstRepeated symbols ident ∨
        Distinct symbols ∧ FirstRepeatedIn rest scope ident := by
  constructor
  · rintro ⟨before, symbols', after, hbodies, hbefore, hfirst⟩
    cases before with
    | nil =>
      obtain ⟨⟨⟩, -⟩ := List.cons.inj hbodies
      exact .inl ⟨rfl, hfirst⟩
    | cons body before =>
      obtain ⟨rfl, rfl⟩ := List.cons.inj hbodies
      exact .inr ⟨hbefore _ List.mem_cons_self, before, symbols', after, rfl,
        fun body hb => hbefore body (List.mem_cons_of_mem _ hb), hfirst⟩
  · rintro (⟨rfl, hfirst⟩ | ⟨hd, before, symbols', after, rfl, hbefore, hfirst⟩)
    · exact ⟨[], symbols, rest, rfl, fun _ hb => absurd hb List.not_mem_nil, hfirst⟩
    · refine ⟨(id, symbols) :: before, symbols', after, rfl, fun body hb => ?_, hfirst⟩
      rcases List.mem_cons.mp hb with rfl | hb
      · exact hd
      · exact hbefore body hb

theorem any_clashes_iff {earlier : List Symbol} {s : Symbol} :
    earlier.any (·.clashes s) = true ↔ ∃ r ∈ earlier, r.ident = s.ident ∧ r.ty = s.ty := by
  simp [Symbol.clashes]

theorem distinct_nil : Distinct [] := List.nodup_nil

/-- A symbol may follow if it clashes with none before. -/
theorem distinct_append_singleton {symbols : List Symbol} {s : Symbol} :
    Distinct (symbols ++ [s]) ↔ Distinct symbols ∧ ¬symbols.any (·.clashes s) = true := by
  rw [any_clashes_iff, Distinct, Distinct, List.map_append, List.nodup_append]
  simp

theorem not_distinct_of_clash {earlier later : List Symbol} {s : Symbol}
    (h : earlier.any (·.clashes s) = true) : ¬Distinct (earlier ++ s :: later) := by
  intro hd
  have hs : Distinct (earlier ++ [s]) := by
    refine hd.sublist (List.Sublist.map _ ?_)
    exact List.Sublist.append_left (List.singleton_sublist.mpr List.mem_cons_self) earlier
  exact (distinct_append_singleton.mp hs).2 h

/-- The symbols of a body of `id`, of which `earlier` have been declared, or the first that clashes
with one before it. -/
def checkBody (id : ScopeId) (earlier : List Symbol) : List Symbol → Except Error (List Symbol)
  | [] => .ok earlier
  | s :: rest =>
    if earlier.any (·.clashes s) then .error (.duplicateDeclaration id s.ident)
    else checkBody id (earlier ++ [s]) rest

theorem checkBody_eq_ok_iff_of_distinct {id : ScopeId} {earlier symbols result : List Symbol}
    (h : Distinct earlier) :
    checkBody id earlier symbols = .ok result ↔
      Distinct (earlier ++ symbols) ∧ earlier ++ symbols = result := by
  induction symbols generalizing earlier with
  | nil => simp [checkBody, h]
  | cons s rest ih =>
    rw [checkBody]
    split
    case isTrue hc => simp [not_distinct_of_clash hc]
    case isFalse hc =>
      rw [ih (distinct_append_singleton.mpr ⟨h, hc⟩), List.append_assoc, List.singleton_append]

/-- A body is refused at its first symbol that clashes with an earlier one. -/
theorem checkBody_eq_error_iff_of_distinct {id : ScopeId} {earlier symbols : List Symbol} {e : Error}
    (h : Distinct earlier) :
    checkBody id earlier symbols = .error e ↔
      ∃ between s later, symbols = between ++ s :: later ∧ Distinct (earlier ++ between) ∧
        (earlier ++ between).any (·.clashes s) = true ∧ e = .duplicateDeclaration id s.ident := by
  induction symbols generalizing earlier with
  | nil => simp [checkBody]
  | cons s rest ih =>
    rw [checkBody]
    split
    case isTrue hc =>
      constructor
      · rintro ⟨⟩
        exact ⟨[], s, rest, rfl, by rwa [List.append_nil], by rwa [List.append_nil], rfl⟩
      · rintro ⟨between, s', later, hs, hd, -, rfl⟩
        cases between with
        | nil =>
          obtain ⟨rfl, -⟩ := List.cons.inj hs
          rfl
        | cons _ between =>
          -- The symbol clashes before any later one can be the first.
          obtain ⟨rfl, -⟩ := List.cons.inj hs
          exact absurd hd (not_distinct_of_clash hc)
    case isFalse hc =>
      rw [ih (distinct_append_singleton.mpr ⟨h, hc⟩)]
      constructor
      · rintro ⟨between, s', later, rfl, hd, hs, rfl⟩
        rw [List.append_assoc] at hd hs
        exact ⟨s :: between, s', later, rfl, hd, hs, rfl⟩
      · rintro ⟨between, s', later, hs, hd, hany, rfl⟩
        cases between with
        | nil =>
          obtain ⟨rfl, -⟩ := List.cons.inj hs
          rw [List.append_nil] at hany
          exact absurd hany hc
        | cons _ between =>
          obtain ⟨rfl, rfl⟩ := List.cons.inj hs
          exact ⟨between, s', later, rfl, by rwa [List.append_assoc], by rwa [List.append_assoc], rfl⟩

theorem checkBody_nil_eq_error_iff {id : ScopeId} {symbols : List Symbol} {e : Error} :
    checkBody id [] symbols = .error e ↔
      ∃ ident, e = .duplicateDeclaration id ident ∧ FirstRepeated symbols ident := by
  rw [checkBody_eq_error_iff_of_distinct distinct_nil]
  constructor
  · rintro ⟨earlier, s, later, rfl, hd, hs, rfl⟩
    exact ⟨s.ident, rfl, earlier, s, later, rfl, hd, any_clashes_iff.mp hs, rfl⟩
  · rintro ⟨_, rfl, earlier, s, later, rfl, hd, hs, rfl⟩
    exact ⟨earlier, s, later, rfl, hd, any_clashes_iff.mpr hs, rfl⟩

theorem checkBody_nil_eq_ok_iff {id : ScopeId} {symbols result : List Symbol} :
    checkBody id [] symbols = .ok result ↔ Distinct symbols ∧ symbols = result :=
  checkBody_eq_ok_iff_of_distinct distinct_nil

/-- Puts bodies into a table one after another, up to the first repeated declaration. -/
def declareBodies : List Body → ScopeTable → Except Error ScopeTable
  | [], t => .ok t
  | (id, symbols) :: rest, t => do
    let symbols ← checkBody id [] symbols
    declareBodies rest (t.insert id symbols)

theorem declareBodies_append (a b : List Body) (t : ScopeTable) :
    declareBodies (a ++ b) t = declareBodies a t >>= declareBodies b := by
  induction a generalizing t with
  | nil => rfl
  | cons body rest ih =>
    obtain ⟨id, symbols⟩ := body
    rw [List.cons_append, declareBodies, declareBodies]
    cases checkBody id [] symbols with
    | error e => rfl
    | ok symbols => exact ih _

/-- Without repetitions all bodies are filled in. -/
theorem declareBodies_of_distinct {bodies : List Body} (h : ∀ body ∈ bodies, Distinct body.2)
    (t : ScopeTable) : declareBodies bodies t = .ok (t.fill bodies) := by
  induction bodies generalizing t with
  | nil => rfl
  | cons body rest ih =>
    obtain ⟨id, symbols⟩ := body
    have hbody : checkBody id [] symbols = .ok symbols :=
      checkBody_nil_eq_ok_iff.mpr ⟨h _ List.mem_cons_self, rfl⟩
    rw [declareBodies, hbody]
    exact ih (fun body hb => h body (List.mem_cons_of_mem _ hb)) _

/-- The first repetition is reported, with its scope. -/
theorem declareBodies_eq_error_iff {bodies : List Body} {t : ScopeTable} {e : Error} :
    declareBodies bodies t = .error e ↔
      ∃ scope ident, e = .duplicateDeclaration scope ident ∧ FirstRepeatedIn bodies scope ident := by
  induction bodies generalizing t with
  | nil => simp [declareBodies, FirstRepeatedIn]
  | cons body rest ih =>
    obtain ⟨id, symbols⟩ := body
    rw [declareBodies]
    cases hbody : checkBody id [] symbols with
    | error e' =>
      obtain ⟨ident, rfl, hfirst⟩ := checkBody_nil_eq_error_iff.mp hbody
      constructor
      · rintro ⟨⟩
        exact ⟨id, ident, rfl, firstRepeatedIn_cons_iff.mpr (.inl ⟨rfl, hfirst⟩)⟩
      · rintro ⟨scope, ident', rfl, hin⟩
        rcases firstRepeatedIn_cons_iff.mp hin with ⟨rfl, hfirst'⟩ | ⟨hd, -⟩
        · have he := hbody.symm.trans (checkBody_nil_eq_error_iff.mpr ⟨ident', rfl, hfirst'⟩)
          exact congrArg Except.error (Except.error.inj he)
        · cases hbody.symm.trans (checkBody_nil_eq_ok_iff.mpr ⟨hd, rfl⟩)
    | ok result =>
      obtain ⟨hd, rfl⟩ := checkBody_nil_eq_ok_iff.mp hbody
      refine Iff.trans (ih (t := t.insert id symbols)) ?_
      constructor
      · rintro ⟨scope, ident, rfl, hin⟩
        exact ⟨scope, ident, rfl, firstRepeatedIn_cons_iff.mpr (.inr ⟨hd, hin⟩)⟩
      · rintro ⟨scope, ident, rfl, hin⟩
        rcases firstRepeatedIn_cons_iff.mp hin with ⟨rfl, hfirst⟩ | ⟨-, hin⟩
        · cases hbody.symm.trans (checkBody_nil_eq_error_iff.mpr ⟨ident, rfl, hfirst⟩)
        · exact ⟨scope, ident, rfl, hin⟩

/-- A table is made only of bodies without repeated declarations. -/
theorem distinct_of_declareBodies {bodies : List Body} {t t' : ScopeTable}
    (h : declareBodies bodies t = .ok t') : ∀ body ∈ bodies, Distinct body.2 := by
  induction bodies generalizing t with
  | nil => exact fun _ hb => absurd hb List.not_mem_nil
  | cons body rest ih =>
    obtain ⟨id, symbols⟩ := body
    rw [declareBodies] at h
    cases hbody : checkBody id [] symbols with
    | error e =>
      rw [hbody] at h
      cases h
    | ok result =>
      rw [hbody] at h
      intro body hb
      rcases List.mem_cons.mp hb with rfl | hb
      · exact (checkBody_nil_eq_ok_iff.mp hbody).1
      · exact ih h body hb

/-! ## Declarations in the innermost scope -/

namespace ScopeTable.Builder

variable {id : ScopeId} {s : ScopeStack}

/-- Symbols are declared in their order, up to the first that is refused. -/
theorem declareAll_append (a b : List Symbol) (builder : Builder) :
    builder.declareAll (a ++ b) = (builder.declareAll a).andThen (declareAll b) := by
  induction a generalizing builder with
  | nil => rfl
  | cons symbol rest ih =>
    rw [List.cons_append, declareAll, declareAll, Step.andThen_assoc]
    congr 1
    funext builder'
    exact ih builder'

/-- Events that declare add up to one list of declarations. -/
theorem run_raise {events : List Event} (h : ∀ e ∈ events, e.scopeCall? = none) (b : Builder) :
    Step.run raise events b = b.declareAll (events.flatMap Event.declared) := by
  induction events generalizing b with
  | nil => rfl
  | cons event rest ih =>
    have hr : b.raise event = b.declareAll event.declared := by
      rw [raise, h event List.mem_cons_self]
    rw [Step.run, hr, List.flatMap_cons, declareAll_append]
    congr 1
    funext b'
    exact ih (fun e he => h e (List.mem_cons_of_mem _ he)) b'

/-- What declarations do to a scope that already has the symbols `earlier`. -/
theorem result_declareAll (h : s.current = some id) (t : ScopeTable) (earlier symbols : List Symbol) :
    (declareAll symbols ⟨t.insert id earlier, s⟩).result =
      Fault.lift (checkBody id earlier symbols) fun symbols => ⟨t.insert id symbols, s⟩ := by
  induction symbols generalizing earlier with
  | nil =>
    rfl
  | cons symbol rest ih =>
    have hd : declaredIn ⟨t.insert id earlier, s⟩ id = earlier := by
      rw [declaredIn, symbols?_insert, if_pos rfl]
      rfl
    by_cases hc : earlier.any (·.clashes symbol)
    · have hstop : declare ⟨t.insert id earlier, s⟩ symbol =
          .stop ⟨t.insert id earlier, s⟩ (.error (.duplicateDeclaration id symbol.ident)) := by
        simp only [declare, h, hd, hc, ↓reduceIte]
      rw [declareAll, hstop, checkBody, if_pos hc]
      rfl
    · have hok : declare ⟨t.insert id earlier, s⟩ symbol =
          .ok ⟨t.insert id (earlier ++ [symbol]), s⟩ := by
        simp only [declare, h, hd, hc, insert_insert]
        rfl
      rw [declareAll, hok, Step.ok_andThen, ih, checkBody, if_neg hc]

theorem scopeCall?_decls (decls : List Decl) : ∀ e ∈ decls.map Decl.event, e.scopeCall? = none := by
  intro e he
  obtain ⟨decl, -, rfl⟩ := List.mem_map.mp he
  cases decl <;> rfl

theorem declared_decls (decls : List Decl) :
    (decls.map Decl.event).flatMap Event.declared = decls.flatMap Decl.symbols := by
  rw [List.flatMap_map]
  congr 1
  funext decl
  cases decl <;> rfl

/-- The declarations of a body, in a scope just opened. -/
theorem result_walkDecls (h : s.current = some id) (t : ScopeTable) (decls : List Decl) :
    (walkDecls raise decls ⟨t.insert id [], s⟩).result =
      Fault.lift (checkBody id [] (decls.flatMap Decl.symbols))
        fun symbols => ⟨t.insert id symbols, s⟩ := by
  rw [walkDecls_eq_run, run_raise (scopeCall?_decls decls), declared_decls, result_declareAll h]

theorem raise_exitIf {s' : ScopeStack} {t : ScopeTable} (h : s.exitIf = .ok s') :
    raise ⟨t, s⟩ .exitIf = .ok ⟨t, s'⟩ := by
  show call ⟨t, s⟩ .exitIf = _
  simp only [call, ScopeStack.apply, h]
  rfl

/-- The events of expressions declare nothing. -/
theorem inert_raise (b : Builder) : Inert raise b := by
  intro e he
  cases e <;> first | rfl | cases he

end ScopeTable.Builder

/-! ## The walk -/

namespace ParseTree

open ScopeTable.Builder

mutual

/-- The walk over a statement puts its bodies into the table. Afterwards the same scopes are open,
and the numbers of its blocks are used up. -/
theorem Stmt.walk_bodies (stmt : Stmt) (t : ScopeTable) (s : ScopeStack) :
    (stmt.walk raise ⟨t, s⟩).result =
      Fault.lift (declareBodies (stmt.bodies s.nextBlock) t)
        fun t => ⟨t, s.renumber (s.nextBlock + stmt.blockCount)⟩ := by
  match stmt with
  | .assign target expr =>
    have he : (Stmt.assign target expr).walk raise ⟨t, s⟩ = .ok ⟨t, s⟩ := by
      rw [Stmt.walk]
      show Step.andThen (expr.walk raise ⟨t, s⟩) _ = _
      rw [Expr.walk_of_inert (inert_raise _)]
      rfl
    rw [he]
    rfl
  | .read idents => rw [Stmt.walk]; rfl
  | .write idents => rw [Stmt.walk]; rfl
  | .return expr =>
    rw [Stmt.walk, Expr.walk_of_inert (inert_raise _)]
    rfl
  | .ifThen cond decls body elsePart =>
    rw [Stmt.walk, Stmt.bodies, Stmt.blockCount]
    show Step.result (Step.andThen (cond.walk raise ⟨t.insert (.block s.nextBlock) [], s.enterIf⟩) _)
      = _
    rw [Cond.walk_of_inert (inert_raise _), Step.ok_andThen]
    refine Step.result_andThen_lift (result_walkDecls s.current_enterIf t decls) fun symbols => ?_
    rw [declareBodies_append]
    refine Step.result_andThen_lift (walkStmts_bodies body _ s.enterIf) fun t => ?_
    rw [walkElse_bodies elsePart t s, ScopeStack.nextBlock_enterIf, Nat.add_assoc, Nat.add_assoc,
      Nat.add_assoc]
  | .while cond decls body =>
    rw [Stmt.walk, Stmt.bodies, Stmt.blockCount]
    show Step.result
      (Step.andThen (cond.walk raise ⟨t.insert (.block s.nextBlock) [], s.enterBlock⟩) _) = _
    rw [Cond.walk_of_inert (inert_raise _), Step.ok_andThen]
    refine Step.result_andThen_lift (result_walkDecls rfl t decls) fun symbols => ?_
    refine Step.result_andThen_ok (walkStmts_bodies body _ s.enterBlock) fun t => ?_
    rw [ScopeStack.enterBlock_eq, ScopeStack.nextBlock_renumber, Nat.add_assoc]
    rfl

/-- Statements declare the bodies of their blocks, and use up their numbers. -/
theorem walkStmts_bodies (stmts : List Stmt) (t : ScopeTable) (s : ScopeStack) :
    (walkStmts raise stmts ⟨t, s⟩).result =
      Fault.lift (declareBodies (stmtBodies s.nextBlock stmts) t)
        fun t => ⟨t, s.renumber (s.nextBlock + stmtBlocks stmts)⟩ := by
  match stmts with
  | [] => rfl
  | stmt :: rest =>
    rw [walkStmts, stmtBodies, stmtBlocks, declareBodies_append]
    refine Step.result_andThen_lift (Stmt.walk_bodies stmt t s) fun t => ?_
    rw [walkStmts_bodies rest, ScopeStack.nextBlock_renumber, Nat.add_assoc]
    rfl

/-- The else part of an `if` that was entered in `s`, and the end of the `if`. -/
theorem walkElse_bodies (elsePart : Option ElsePart) (t : ScopeTable) (s : ScopeStack) (n : Nat) :
    ((walkElse raise elsePart ⟨t, s.enterIf.renumber n⟩).andThen fun b => b.raise .exitIf).result =
      Fault.lift (declareBodies (elseBodies n elsePart) t)
        fun t => ⟨t, s.renumber (n + elseBlocks elsePart)⟩ := by
  match elsePart with
  | none =>
    rw [walkElse, Step.ok_andThen, raise_exitIf (ScopeStack.exitIf_enterIf s n)]
    rfl
  | some ⟨decls, body⟩ =>
    rw [walkElse, elseBodies, elseBlocks]
    show Step.result (Step.andThen (Step.andThen
      (walkDecls raise decls ⟨t.insert (.block n) [], s.inElse n⟩) _) _) = _
    rw [Step.andThen_assoc]
    refine Step.result_andThen_lift (result_walkDecls (s.current_inElse n) t decls) fun symbols => ?_
    rw [Step.andThen_assoc]
    refine Step.result_andThen_ok (walkStmts_bodies body _ (s.inElse n)) fun t => ?_
    have helse : ∀ b : ScopeTable.Builder, b.raise .exitElse = .ok b := fun _ => rfl
    rw [helse, Step.ok_andThen, raise_exitIf (ScopeStack.exitIf_inElse s n _),
      ScopeStack.nextBlock_inElse, Nat.add_assoc]

end

theorem declared_params (params : List Param) :
    (paramEvents params).flatMap Event.declared = params.map Param.symbol := by
  cases params with
  | nil => rfl
  | cons param rest => exact List.append_nil _

theorem scopeCall?_params (params : List Param) : ∀ e ∈ paramEvents params, e.scopeCall? = none := by
  cases params with
  | nil => intro e he; cases he
  | cons param rest =>
    intro e he
    rw [List.mem_singleton.mp he]
    rfl

/-- A procedure declares its own body, then those of its blocks. -/
theorem FuncDecl.walk_bodies (func : FuncDecl) (t : ScopeTable) (s : ScopeStack) :
    (func.walk raise ⟨t, s⟩).result =
      Fault.lift (declareBodies (func.bodies s.nextBlock) t)
        fun t => ⟨t, s.renumber (s.nextBlock + stmtBlocks func.body)⟩ := by
  have hcall : ∀ e ∈ paramEvents func.params ++ func.decls.map Decl.event,
      e.scopeCall? = none := by
    intro e he
    rcases List.mem_append.mp he with he | he
    · exact scopeCall?_params func.params e he
    · exact scopeCall?_decls func.decls e he
  rw [FuncDecl.walk, FuncDecl.bodies, walkParams_eq_run, walkDecls_eq_run]
  show Step.result (Step.andThen (Step.run raise (paramEvents func.params)
    ⟨t.insert (.procedure func.ident) [], s.push (.procedure func.ident)⟩) _) = _
  -- Parameters and declarations are one run of declarations.
  rw [← Step.andThen_assoc]
  show Step.result (Step.andThen (Step.andThen _ (Step.run raise (func.decls.map Decl.event))) _) = _
  rw [← Step.run_append, run_raise hcall, List.flatMap_append, declared_params, declared_decls]
  refine Step.result_andThen_lift (result_declareAll rfl t [] _) fun symbols => ?_
  exact Step.result_andThen_ok (walkStmts_bodies func.body _ _) fun t => rfl

theorem walkFuncs_bodies (funcs : List FuncDecl) (t : ScopeTable) (s : ScopeStack) :
    (walkFuncs raise funcs ⟨t, s⟩).result =
      Fault.lift (declareBodies (funcBodies s.nextBlock funcs) t)
        fun t => ⟨t, s.renumber (s.nextBlock + funcBlocks funcs)⟩ := by
  induction funcs generalizing t s with
  | nil => rfl
  | cons func rest ih =>
    rw [walkFuncs, funcBodies, funcBlocks, declareBodies_append]
    refine Step.result_andThen_lift (FuncDecl.walk_bodies func t s) fun t => ?_
    rw [ih, ScopeStack.nextBlock_renumber, Nat.add_assoc]
    rfl

/-- The table is filled body by body, and no misuse occurs. -/
theorem Program.scopeTable_eq (program : Program) :
    program.scopeTable = Fault.lift (declareBodies program.bodies .empty) id := by
  have hwalk : (program.walk raise .empty).result =
      Fault.lift (declareBodies program.bodies .empty)
        fun t => ⟨t, ScopeStack.empty.renumber (1 + funcBlocks program.funcs)⟩ := by
    rw [Program.walk, Program.bodies]
    show Step.result (Step.andThen (walkDecls raise program.decls
      ⟨ScopeTable.empty.insert .global [], ScopeStack.empty.push .global⟩) _) = _
    refine Step.result_andThen_lift (result_walkDecls rfl .empty program.decls) fun symbols => ?_
    exact Step.result_andThen_ok (walkFuncs_bodies program.funcs _ _) fun t => rfl
  rw [Program.scopeTable, hwalk, Fault.map_lift]
  rfl

theorem Program.scopeTable_eq_error_iff {program : Program} {fault : Fault} :
    program.scopeTable = .error fault ↔
      ∃ scope ident, fault = .error (.duplicateDeclaration scope ident) ∧
        FirstRepeatedIn program.bodies scope ident := by
  rw [Program.scopeTable_eq, Fault.lift_eq_error_iff]
  constructor
  · rintro ⟨e, he, rfl⟩
    obtain ⟨scope, ident, rfl, hin⟩ := declareBodies_eq_error_iff.mp he
    exact ⟨scope, ident, rfl, hin⟩
  · rintro ⟨scope, ident, rfl, hin⟩
    exact ⟨_, declareBodies_eq_error_iff.mpr ⟨scope, ident, rfl, hin⟩, rfl⟩

theorem Program.scopeTable_of_distinct {program : Program}
    (h : ∀ body ∈ program.bodies, Distinct body.2) :
    program.scopeTable = .ok (ScopeTable.empty.fill program.bodies) := by
  rw [Program.scopeTable_eq, declareBodies_of_distinct h]
  rfl

/-- A repeated declaration is there exactly if there is a first one. -/
theorem exists_firstRepeatedIn_iff {bodies : List Body} :
    (∃ scope ident, FirstRepeatedIn bodies scope ident) ↔ ∃ body ∈ bodies, ¬Distinct body.2 := by
  constructor
  · rintro ⟨scope, ident, hin⟩
    have herror := declareBodies_eq_error_iff (t := .empty).mpr ⟨scope, ident, rfl, hin⟩
    refine Classical.byContradiction fun hnone => ?_
    have hall : ∀ body ∈ bodies, Distinct body.2 := by
      intro body hb
      exact Classical.byContradiction fun hd => hnone ⟨body, hb, hd⟩
    cases herror.symm.trans (declareBodies_of_distinct hall _)
  · rintro ⟨body, hb, hd⟩
    cases h : declareBodies bodies .empty with
    | error e =>
      obtain ⟨scope, ident, -, hin⟩ := declareBodies_eq_error_iff.mp h
      exact ⟨scope, ident, hin⟩
    | ok t => exact absurd (distinct_of_declareBodies h body hb) hd

/-- The scope table holds the bodies of the program: each scope stands where its first body starts
and has the symbols of its last body. It is refused exactly if a body repeats a declaration, and then
the first repeated one is reported. There is one body for the program, one for each procedure and one
for each block; blocks are numbered from 1. -/
theorem Program.scopeTable_bodies (program : Program) :
    (∀ fault, program.scopeTable = .error fault ↔
      ∃ scope ident, fault = .error (.duplicateDeclaration scope ident) ∧
        FirstRepeatedIn program.bodies scope ident) ∧
    ((∃ scope ident, FirstRepeatedIn program.bodies scope ident) ↔
      ∃ body ∈ program.bodies, ¬Distinct body.2) ∧
    ((∀ body ∈ program.bodies, Distinct body.2) →
      program.scopeTable = .ok ⟨(program.bodies.map Prod.fst).eraseDups.map
        fun id => (id, (program.bodies.reverse.lookup id).getD [])⟩) ∧
    ((∀ body ∈ program.bodies, Distinct body.2) → (program.funcs.map FuncDecl.ident).Nodup →
      program.scopeTable = .ok ⟨program.bodies⟩) ∧
    (program.bodies.map Prod.fst).filterMap ScopeId.blockNumber? =
      List.range' 1 (funcBlocks program.funcs) ∧
    program.bodies.length = 1 + program.funcs.length + funcBlocks program.funcs := by
  refine ⟨fun _ => scopeTable_eq_error_iff, exists_firstRepeatedIn_iff, fun h => ?_, fun h hnames => ?_,
    blockNumbers_funcBodies program.funcs 1, ?_⟩
  · rw [scopeTable_of_distinct h, ← ScopeTable.scopes_fill_empty]
  · have hscopes : (ScopeTable.empty.fill program.bodies).scopes = program.bodies :=
      ScopeTable.scopes_fill_of_nodup (t := .empty) (nodup_scopes_bodies hnames)
    rw [scopeTable_of_distinct h]
    exact congrArg (Except.ok ∘ ScopeTable.mk) hscopes
  · rw [Program.bodies, List.length_cons, length_funcBodies]
    omega

/-- A procedure with a `while` in an `if` that has an else part, alone and before a second procedure
of its name. -/
theorem Program.scopeTable_repeated_procedure :
    let cond : Cond := ⟨⟨⟨.atom "a", []⟩, []⟩, .less, ⟨⟨.atom "1", []⟩, []⟩⟩
    let outer : Stmt := .ifThen cond [.var .float ["b"]] [.while cond [] []]
      (some ⟨[.string "s" "text"], []⟩)
    let main : FuncDecl := ⟨"main", [], [.var .int ["a"]], [outer]⟩
    let single : Program := ⟨"p", [], [main]⟩
    let double : Program := ⟨"p", [], [main, ⟨"main", [⟨.int, "n"⟩], [.var .float ["n"]], []⟩]⟩
    ((∀ body ∈ single.bodies, Distinct body.2) ∧ (single.funcs.map FuncDecl.ident).Nodup ∧
      single.scopeTable = .ok ⟨single.bodies⟩) ∧
    (∀ body ∈ double.bodies, Distinct body.2) ∧
      double.scopeTable = .ok ⟨[(.global, []),
        (.procedure "main", [⟨"n", .num .int⟩, ⟨"n", .num .float⟩]),
        (.block 1, [⟨"b", .num .float⟩]), (.block 2, []), (.block 3, [⟨"s", .str "text"⟩])]⟩ := by
  intro cond outer main single double
  have hs : ∀ body ∈ single.bodies, Distinct body.2 := by decide
  have hnames : (single.funcs.map FuncDecl.ident).Nodup := by decide
  have hd : ∀ body ∈ double.bodies, Distinct body.2 := by decide
  refine ⟨⟨hs, hnames, single.scopeTable_bodies.2.2.2.1 hs hnames⟩, hd, ?_⟩
  exact (double.scopeTable_bodies.2.2.1 hd).trans rfl

end ParseTree

end TinyGen
