import TinyGen.Proofs.Events
import TinyGen.Proofs.Relabelling
import TinyGen.Proofs.ScopeTable
import TinyGen.ScopeTable.Builder
import TinyGen.Text.Numeral

/-!
# Renamed programs

A `Renaming` gives new names to the variables and to the procedures of a program. It keeps names
apart, and it makes no number of a name.

`Program.events_rename`: a renamed program has the renamed events. So what a stage makes of it follows
from what the stage does with one renamed event in a renamed state, and `Step.run_bimap` puts the events
together. For scope tables this is `ScopeTable.Builder.raise_rename` and `Program.scopeTable_rename`.
-/

namespace TinyGen

open ParseTree

/-- New names for variables and for procedures. -/
structure Renaming where
  name : String → String
  procedure : String → String
  name_injective : Function.Injective name
  procedure_injective : Function.Injective procedure
  isNumeral_name : ∀ text, Text.isNumeral text = false → Text.isNumeral (name text) = false

namespace Renaming

variable (ρ : Renaming)

/-- The new text of an atom. A numeral is not a name. -/
def atom (text : String) : String :=
  if Text.isNumeral text then text else ρ.name text

/-- A renamed atom is a numeral if it was one. -/
theorem isNumeral_atom (text : String) : Text.isNumeral (ρ.atom text) = Text.isNumeral text := by
  rw [atom]
  cases h : Text.isNumeral text with
  | true => exact h
  | false => exact ρ.isNumeral_name text h

end Renaming

variable (ρ : Renaming)

/-- The fault of a renamed program. -/
def Fault.rename : Fault → Fault :=
  Fault.mapNames ρ.name ρ.procedure

/-! ## Parse trees -/

namespace ParseTree

mutual

/-- The expression with its names renamed. -/
def Expr.rename : Expr → Expr
  | ⟨first, rest⟩ => ⟨first.rename, renameTerms rest⟩

def renameTerms : List (AddOp × Factor) → List (AddOp × Factor)
  | [] => []
  | (op, factor) :: rest => (op, factor.rename) :: renameTerms rest

def Factor.rename : Factor → Factor
  | ⟨first, rest⟩ => ⟨first.rename, renameProducts rest⟩

def renameProducts : List (MulOp × Primary) → List (MulOp × Primary)
  | [] => []
  | (op, primary) :: rest => (op, primary.rename) :: renameProducts rest

def Primary.rename : Primary → Primary
  | .atom text => .atom (ρ.atom text)
  | .group inner => .group inner.rename

end

def Cond.rename (cond : Cond) : Cond :=
  ⟨cond.lhs.rename ρ, cond.op, cond.rhs.rename ρ⟩

def Decl.rename : Decl → Decl
  | .var ty idents => .var ty (idents.map ρ.name)
  | .string ident literal => .string (ρ.name ident) literal

def Param.rename (param : Param) : Param :=
  { param with ident := ρ.name param.ident }

mutual

/-- The statement with its names renamed. -/
def Stmt.rename : Stmt → Stmt
  | .assign target expr => .assign (ρ.name target) (expr.rename ρ)
  | .read idents => .read (idents.map ρ.name)
  | .write idents => .write (idents.map ρ.name)
  | .return expr => .return (expr.rename ρ)
  | .ifThen cond decls body elsePart =>
    .ifThen (cond.rename ρ) (decls.map (Decl.rename ρ)) (renameStmts body) (renameElse elsePart)
  | .while cond decls body =>
    .while (cond.rename ρ) (decls.map (Decl.rename ρ)) (renameStmts body)

def renameStmts : List Stmt → List Stmt
  | [] => []
  | stmt :: rest => stmt.rename :: renameStmts rest

def renameElse : Option ElsePart → Option ElsePart
  | none => none
  | some ⟨decls, body⟩ => some ⟨decls.map (Decl.rename ρ), renameStmts body⟩

end

def FuncDecl.rename (func : FuncDecl) : FuncDecl :=
  ⟨ρ.procedure func.ident, func.params.map (Param.rename ρ), func.decls.map (Decl.rename ρ),
    renameStmts ρ func.body⟩

/-- The program with its variables and procedures renamed. Its own name, texts of strings and numerals
stay as they are. -/
def Program.rename (program : Program) : Program :=
  { program with
    decls := program.decls.map (Decl.rename ρ)
    funcs := program.funcs.map (FuncDecl.rename ρ) }

end ParseTree

/-! ## Events -/

/-- The event with its names renamed. -/
def Event.rename : Event → Event
  | .varDecl ty idents => .varDecl ty (idents.map ρ.name)
  | .paramDecls params => .paramDecls (params.map (Param.rename ρ))
  | .stringDecl ident literal => .stringDecl (ρ.name ident) literal
  | .enterProcedure ident => .enterProcedure (ρ.procedure ident)
  | .exitProcedure ident => .exitProcedure (ρ.procedure ident)
  | .enterAssign target => .enterAssign (ρ.name target)
  | .exitAssign target => .exitAssign (ρ.name target)
  | .read idents => .read (idents.map ρ.name)
  | .write idents => .write (idents.map ρ.name)
  | .enterAtom text => .enterAtom (ρ.atom text)
  | .exitAtom text => .exitAtom (ρ.atom text)
  | .enterGroup inner => .enterGroup (inner.rename ρ)
  | .exitGroup inner => .exitGroup (inner.rename ρ)
  | event => event

namespace ParseTree

mutual

/-- A renamed expression has the renamed events. -/
theorem Expr.events_rename (expr : Expr) :
    (expr.rename ρ).events = expr.events.map (Event.rename ρ) := by
  obtain ⟨first, rest⟩ := expr
  rw [Expr.rename, Expr.events, Expr.events, List.map_append, Factor.events_rename first,
    termEvents_rename rest]

theorem termEvents_rename (rest : List (AddOp × Factor)) :
    termEvents (renameTerms ρ rest) = (termEvents rest).map (Event.rename ρ) := by
  match rest with
  | [] => rfl
  | (op, factor) :: rest =>
    rw [renameTerms, termEvents, termEvents, List.map_cons, List.map_append,
      Factor.events_rename factor, termEvents_rename rest]
    rfl

theorem Factor.events_rename (factor : Factor) :
    (factor.rename ρ).events = factor.events.map (Event.rename ρ) := by
  obtain ⟨first, rest⟩ := factor
  rw [Factor.rename, Factor.events, Factor.events, List.map_append, Primary.events_rename first,
    productEvents_rename rest]

theorem productEvents_rename (rest : List (MulOp × Primary)) :
    productEvents (renameProducts ρ rest) = (productEvents rest).map (Event.rename ρ) := by
  match rest with
  | [] => rfl
  | (op, primary) :: rest =>
    rw [renameProducts, productEvents, productEvents, List.map_cons, List.map_append,
      Primary.events_rename primary, productEvents_rename rest]
    rfl

theorem Primary.events_rename (primary : Primary) :
    (primary.rename ρ).events = primary.events.map (Event.rename ρ) := by
  match primary with
  | .atom text => rfl
  | .group inner =>
    rw [Primary.rename, Primary.events, Primary.events, List.map_cons, List.map_append,
      Expr.events_rename inner]
    rfl

end

theorem Cond.events_rename (cond : Cond) :
    (cond.rename ρ).events = cond.events.map (Event.rename ρ) := by
  simp only [Cond.rename, Cond.events, List.map_append, Expr.events_rename]

/-- Renamed declarations have the renamed events. -/
theorem declEvents_rename (decls : List Decl) :
    (decls.map (Decl.rename ρ)).map Decl.event = (decls.map Decl.event).map (Event.rename ρ) := by
  rw [List.map_map, List.map_map]
  refine List.map_congr_left fun decl _ => ?_
  cases decl <;> rfl

/-- Renamed parameters have the renamed events. -/
theorem paramEvents_rename (params : List Param) :
    paramEvents (params.map (Param.rename ρ)) = (paramEvents params).map (Event.rename ρ) := by
  cases params <;> rfl

mutual

/-- A renamed statement has the renamed events, whether it has an else part or not. -/
theorem Stmt.events_rename (stmt : Stmt) :
    (stmt.rename ρ).events = stmt.events.map (Event.rename ρ) := by
  match stmt with
  | .assign target expr =>
    simp only [Stmt.rename, Stmt.events, List.map_cons, List.map_append, Expr.events_rename]
    rfl
  | .read idents => rfl
  | .write idents => rfl
  | .return expr => rw [Stmt.rename, Stmt.events, Stmt.events, Expr.events_rename]
  | .ifThen cond decls body elsePart =>
    have helse : (renameElse ρ elsePart).isSome = elsePart.isSome := by
      match elsePart with
      | none => rfl
      | some ⟨_, _⟩ => rfl
    simp only [Stmt.rename, Stmt.events, List.map_cons, List.map_append, Cond.events_rename,
      declEvents_rename, stmtEvents_rename body, elseEvents_rename elsePart, helse]
    rfl
  | .while cond decls body =>
    simp only [Stmt.rename, Stmt.events, List.map_cons, List.map_append, Cond.events_rename,
      declEvents_rename, stmtEvents_rename body]
    rfl

theorem stmtEvents_rename (stmts : List Stmt) :
    stmtEvents (renameStmts ρ stmts) = (stmtEvents stmts).map (Event.rename ρ) := by
  match stmts with
  | [] => rfl
  | stmt :: rest =>
    rw [renameStmts, stmtEvents, stmtEvents, List.map_append, Stmt.events_rename stmt,
      stmtEvents_rename rest]

theorem elseEvents_rename (elsePart : Option ElsePart) :
    elseEvents (renameElse ρ elsePart) = (elseEvents elsePart).map (Event.rename ρ) := by
  match elsePart with
  | none => rfl
  | some ⟨decls, body⟩ =>
    simp only [renameElse, elseEvents, List.map_cons, List.map_append, declEvents_rename,
      stmtEvents_rename body]
    rfl

end

/-- A renamed procedure has the renamed events. -/
theorem FuncDecl.events_rename (func : FuncDecl) :
    (func.rename ρ).events = func.events.map (Event.rename ρ) := by
  simp only [FuncDecl.rename, FuncDecl.events, List.map_cons, List.map_append, paramEvents_rename,
    declEvents_rename, stmtEvents_rename]
  rfl

/-- **A renamed program has the renamed events.** -/
theorem Program.events_rename (program : Program) :
    (program.rename ρ).events = program.events.map (Event.rename ρ) := by
  have hfuncs : (program.funcs.map (FuncDecl.rename ρ)).flatMap FuncDecl.events =
      (program.funcs.flatMap FuncDecl.events).map (Event.rename ρ) := by
    rw [List.flatMap_map, List.map_flatMap]
    simp only [FuncDecl.events_rename]
  simp only [Program.rename, Program.events, List.map_cons, List.map_append, declEvents_rename, hfuncs]
  rfl

end ParseTree

/-! ## Steps -/

namespace Step

variable {ε σ ε' σ' : Type} {φ : ε → ε'} {r : σ → σ'}

/-- The step with its state and its fault replaced. -/
def bimap (φ : ε → ε') (r : σ → σ') (step : Step ε σ) : Step ε' σ' :=
  ⟨r step.state, step.fault.map φ⟩

/-- Two steps that go on alike are alike together. -/
theorem andThen_bimap {step : Step ε σ} {step' : Step ε' σ'} {next : σ → Step ε σ}
    {next' : σ' → Step ε' σ'} (hstep : step' = step.bimap φ r)
    (hnext : ∀ s, next' (r s) = (next s).bimap φ r) :
    step'.andThen next' = (step.andThen next).bimap φ r := by
  subst hstep
  obtain ⟨s, _ | fault⟩ := step
  · exact hnext s
  · rfl

/-- A run over replaced events, when every event is taken in alike. -/
theorem run_bimap {visit : σ → Event → Step ε σ} {visit' : σ' → Event → Step ε' σ'}
    {e : Event → Event} (h : ∀ s event, visit' (r s) (e event) = (visit s event).bimap φ r)
    (events : List Event) (s : σ) :
    run visit' (events.map e) (r s) = (run visit events s).bimap φ r := by
  induction events generalizing s with
  | nil => rfl
  | cons event rest ih => exact andThen_bimap (h s event) ih

/-- What a replaced step gives. -/
theorem result_bimap (step : Step ε σ) : (step.bimap φ r).result = mapBoth φ r step.result := by
  obtain ⟨s, _ | fault⟩ := step <;> rfl

end Step

/-- What a stage makes of a renamed program, from what it does with one renamed event. -/
theorem ParseTree.Program.walk_rename {σ : Type} {visit : σ → Event → Step Fault σ} {r : σ → σ}
    (h : ∀ s event, visit (r s) (event.rename ρ) = (visit s event).bimap (Fault.rename ρ) r)
    (program : Program) (s : σ) :
    ((program.rename ρ).walk visit (r s)).result =
      mapBoth (Fault.rename ρ) r (program.walk visit s).result := by
  rw [Program.walk_eq_run, Program.walk_eq_run, Program.events_rename, Step.run_bimap h,
    Step.result_bimap]

/-! ## Open scopes -/

def ScopeId.rename : ScopeId → ScopeId :=
  ScopeId.mapName ρ.procedure

/-- Scopes are kept apart, as procedures are. -/
theorem ScopeId.rename_inj {id id' : ScopeId} : id.rename ρ = id'.rename ρ ↔ id = id' := by
  cases id <;> cases id' <;> simp [rename, mapName, ρ.procedure_injective.eq_iff]

namespace ScopeStack

def Call.rename : Call → Call
  | .enterProcedure ident => .enterProcedure (ρ.procedure ident)
  | c => c

/-- The open scopes of a renamed program. -/
def rename (s : ScopeStack) : ScopeStack :=
  { s with active := s.active.map (ScopeId.rename ρ) }

theorem current_rename (s : ScopeStack) : (s.rename ρ).current = s.current.map (ScopeId.rename ρ) :=
  List.head?_map

theorem opens_rename (c : Call) : (c.rename ρ).opens = c.opens := by
  cases c <;> rfl

/-- Which scopes are visible does not depend on their names. -/
theorem visible_rename (s : ScopeStack) : (s.rename ρ).visible = s.visible.map (ScopeId.rename ρ) := by
  show visibleIn s.ifs (s.active.map (ScopeId.rename ρ)) = _
  rw [visible]
  induction s.active with
  | nil => rfl
  | cons id below ih =>
    rw [List.map_cons, visibleIn, visibleIn, List.length_map]
    split
    · exact ih
    · rw [List.map_cons, ih]

/-- No call looks at the names of open scopes. -/
theorem apply_rename (s : ScopeStack) (c : Call) :
    (s.rename ρ).apply (c.rename ρ) = (s.apply c).map (rename ρ) := by
  obtain ⟨active, next, ifs⟩ := s
  have hdepth : (rename ρ ⟨active, next, ifs⟩).depth = active.length := List.length_map _
  cases c with
  | enterIf =>
    show Except.ok (enterIf _) = Except.ok (rename ρ (enterIf _))
    simp only [enterIf, hdepth]
    rfl
  | enterElse => cases ifs <;> rfl
  | exitIf =>
    cases ifs with
    | nil => rfl
    | cons last rest =>
      show Except.ok (ScopeStack.mk (List.drop _ (active.map (ScopeId.rename ρ))) next rest) =
        Except.ok ⟨(active.drop _).map (ScopeId.rename ρ), next, rest⟩
      rw [hdepth, List.map_drop]
      rfl
  | exitScope =>
    show Except.ok (ScopeStack.mk (active.map (ScopeId.rename ρ)).tail next ifs) =
      Except.ok ⟨active.tail.map (ScopeId.rename ρ), next, ifs⟩
    rw [List.map_tail]
  | _ => rfl

end ScopeStack

/-- A renamed event opens or closes the renamed scope. -/
theorem Event.scopeCall?_rename (event : Event) :
    (event.rename ρ).scopeCall? = event.scopeCall?.map (ScopeStack.Call.rename ρ) := by
  cases event <;> rfl

/-! ## Scope tables -/

def Symbol.rename (s : Symbol) : Symbol :=
  { s with ident := ρ.name s.ident }

/-- Two names clash if the new ones do. -/
theorem Symbol.clashes_rename (s t : Symbol) : (s.rename ρ).clashes (t.rename ρ) = s.clashes t := by
  have hident : ((s.rename ρ).ident = (t.rename ρ).ident) ↔ s.ident = t.ident :=
    ρ.name_injective.eq_iff
  rw [clashes, clashes, decide_eq_decide.mpr hident]
  rfl

/-- A renamed event declares the renamed names. -/
theorem Event.declared_rename (event : Event) :
    (event.rename ρ).declared = event.declared.map (Symbol.rename ρ) := by
  cases event with
  | varDecl ty idents =>
    simp only [rename, declared, List.map_map]
    rfl
  | paramDecls params =>
    simp only [rename, declared, List.map_map]
    rfl
  | _ => rfl

namespace ScopeTable

/-- The table of a renamed program. -/
def rename (t : ScopeTable) : ScopeTable :=
  ⟨t.scopes.map fun entry => (entry.1.rename ρ, entry.2.map (Symbol.rename ρ))⟩

/-- A renamed scope has the renamed symbols. -/
theorem symbols?_rename (t : ScopeTable) (id : ScopeId) :
    (t.rename ρ).symbols? (id.rename ρ) = (t.symbols? id).map (List.map (Symbol.rename ρ)) := by
  show List.lookup (id.rename ρ) (t.scopes.map _) = (List.lookup id t.scopes).map _
  induction t.scopes with
  | nil => rfl
  | cons entry rest ih =>
    obtain ⟨id', symbols⟩ := entry
    rw [List.map_cons, lookup_cons, lookup_cons, ih]
    by_cases h : id = id'
    · rw [if_pos h, if_pos ((ScopeId.rename_inj ρ).mpr h)]
      rfl
    · rw [if_neg h, if_neg (mt (ScopeId.rename_inj ρ).mp h)]

/-- A scope is put in the same place under its new name. -/
theorem insert_rename (t : ScopeTable) (id : ScopeId) (symbols : List Symbol) :
    (t.rename ρ).insert (id.rename ρ) (symbols.map (Symbol.rename ρ)) =
      (t.insert id symbols).rename ρ := by
  show ScopeTable.mk (insertIn _ _ (t.scopes.map _)) = ⟨(insertIn id symbols t.scopes).map _⟩
  congr 1
  induction t.scopes with
  | nil => rfl
  | cons entry rest ih =>
    obtain ⟨other, old⟩ := entry
    rw [List.map_cons, insertIn, insertIn]
    by_cases h : other = id
    · rw [if_pos h, if_pos ((ScopeId.rename_inj ρ).mpr h)]
      rfl
    · rw [if_neg h, if_neg (mt (ScopeId.rename_inj ρ).mp h), ih]
      rfl

/-- The last symbol of a name is found under the new name. -/
theorem latest?_rename (symbols : List Symbol) (ident : String) :
    latest? (symbols.map (Symbol.rename ρ)) (ρ.name ident) =
      (latest? symbols ident).map (Symbol.rename ρ) := by
  rw [latest?, latest?, ← List.map_reverse, List.find?_map]
  congr 2
  funext symbol
  exact decide_eq_decide.mpr ρ.name_injective.eq_iff

/-- A renamed name is found where the name is found. -/
theorem lookup?_rename (t : ScopeTable) (scopes : List ScopeId) (ident : String) :
    (t.rename ρ).lookup? (scopes.map (ScopeId.rename ρ)) (ρ.name ident) =
      (t.lookup? scopes ident).map (Symbol.rename ρ) := by
  induction scopes with
  | nil => rfl
  | cons id rest ih =>
    have hid : ((t.rename ρ).symbols? (id.rename ρ)).bind (latest? · (ρ.name ident)) =
        ((t.symbols? id).bind (latest? · ident)).map (Symbol.rename ρ) := by
      rw [symbols?_rename]
      cases t.symbols? id with
      | none => rfl
      | some symbols => exact latest?_rename ρ symbols ident
    simp only [lookup?] at ih ⊢
    rw [List.map_cons, List.findSome?_cons, List.findSome?_cons, hid, ih]
    cases (t.symbols? id).bind (latest? · ident) <;> rfl

theorem firstOfName_rename (seen : List String) (symbols : List Symbol) :
    firstOfName (seen.map ρ.name) (symbols.map (Symbol.rename ρ)) =
      (firstOfName seen symbols).map (Symbol.rename ρ) := by
  induction symbols generalizing seen with
  | nil => rfl
  | cons s rest ih =>
    have hseen : (s.rename ρ).ident ∈ seen.map ρ.name ↔ s.ident ∈ seen := by
      constructor
      · intro h
        obtain ⟨x, hx, he⟩ := List.mem_map.mp h
        rwa [← ρ.name_injective he]
      · exact List.mem_map_of_mem
    rw [List.map_cons, firstOfName, firstOfName]
    by_cases h : s.ident ∈ seen
    · rw [if_pos h, if_pos (hseen.mpr h), ih]
    · rw [if_neg h, if_neg (mt hseen.mp h), List.map_cons, ← ih]
      rfl

/-- The names of a renamed program get storage in the same order. -/
theorem storage_rename (t : ScopeTable) : (t.rename ρ).storage = t.storage.map (Symbol.rename ρ) := by
  have hall : (t.rename ρ).allSymbols = t.allSymbols.map (Symbol.rename ρ) := by
    rw [allSymbols, allSymbols, rename, List.flatMap_map, List.map_flatMap]
  rw [storage, storage, hall]
  exact firstOfName_rename ρ [] t.allSymbols

/-! ## Building scope tables -/

namespace Builder

/-- The builder of a renamed program. -/
def rename (b : Builder) : Builder :=
  ⟨b.table.rename ρ, b.scopes.rename ρ⟩

/-- A renamed symbol is declared, or refused, as the symbol is. -/
theorem declare_rename (b : Builder) (symbol : Symbol) :
    (b.rename ρ).declare (symbol.rename ρ) =
      (b.declare symbol).bimap (Fault.rename ρ) (rename ρ) := by
  have hcurrent : (b.rename ρ).scopes.current = b.scopes.current.map (ScopeId.rename ρ) :=
    ScopeStack.current_rename ρ b.scopes
  rw [declare, declare, hcurrent]
  cases b.scopes.current with
  | none => rfl
  | some id =>
    have hdeclared : (b.rename ρ).declaredIn (id.rename ρ) =
        (b.declaredIn id).map (Symbol.rename ρ) := by
      rw [declaredIn, declaredIn, rename, symbols?_rename]
      cases b.table.symbols? id <;> rfl
    have hclash : ((b.declaredIn id).map (Symbol.rename ρ)).any (·.clashes (symbol.rename ρ)) =
        (b.declaredIn id).any (·.clashes symbol) := by
      rw [List.any_map]
      simp only [Function.comp_def, Symbol.clashes_rename]
    simp only [Option.map_some, hdeclared, hclash]
    split
    · rfl
    · have hinsert := insert_rename ρ b.table id (b.declaredIn id ++ [symbol])
      rw [List.map_append] at hinsert
      exact congrArg (fun table => Step.ok (Builder.mk table (b.scopes.rename ρ))) hinsert

/-- Renamed symbols are declared up to the first that is refused. -/
theorem declareAll_rename (symbols : List Symbol) (b : Builder) :
    (b.rename ρ).declareAll (symbols.map (Symbol.rename ρ)) =
      (b.declareAll symbols).bimap (Fault.rename ρ) (rename ρ) := by
  induction symbols generalizing b with
  | nil => rfl
  | cons symbol rest ih => exact Step.andThen_bimap (declare_rename ρ b symbol) ih

theorem openCurrent_rename (b : Builder) : (b.rename ρ).openCurrent = b.openCurrent.rename ρ := by
  have hcurrent : (b.rename ρ).scopes.current = b.scopes.current.map (ScopeId.rename ρ) :=
    ScopeStack.current_rename ρ b.scopes
  rw [openCurrent, openCurrent, hcurrent]
  cases b.scopes.current with
  | none => rfl
  | some id => exact congrArg (Builder.mk · (b.scopes.rename ρ)) (insert_rename ρ b.table id [])

/-- A renamed scope is opened or closed as the scope is. -/
theorem call_rename (b : Builder) (c : ScopeStack.Call) :
    (b.rename ρ).call (c.rename ρ) = (b.call c).bimap (Fault.rename ρ) (rename ρ) := by
  have happly : (b.rename ρ).scopes.apply (c.rename ρ) =
      (b.scopes.apply c).map (ScopeStack.rename ρ) := ScopeStack.apply_rename ρ b.scopes c
  rw [call, call, happly]
  cases b.scopes.apply c with
  | error misuse => rfl
  | ok scopes =>
    simp only [Except.map, ScopeStack.opens_rename]
    split
    · exact congrArg Step.ok (openCurrent_rename ρ ⟨b.table, scopes⟩)
    · rfl

/-- A renamed event does to a renamed builder what the event does to the builder. -/
theorem raise_rename (b : Builder) (event : Event) :
    (b.rename ρ).raise (event.rename ρ) = (b.raise event).bimap (Fault.rename ρ) (rename ρ) := by
  rw [raise, raise, Event.scopeCall?_rename]
  cases event.scopeCall? with
  | some c => exact call_rename ρ b c
  | none =>
    rw [Event.declared_rename]
    exact declareAll_rename ρ event.declared b

end Builder

end ScopeTable

/-- **The scope table of a renamed program** is the renamed scope table. -/
theorem ParseTree.Program.scopeTable_rename (program : Program) :
    (program.rename ρ).scopeTable =
      mapBoth (Fault.rename ρ) (ScopeTable.rename ρ) program.scopeTable :=
  mapBoth_map (Program.walk_rename ρ (ScopeTable.Builder.raise_rename ρ) program .empty) fun _ => rfl

end TinyGen
