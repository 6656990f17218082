import TinyGen.Proofs.AnyEvents
import TinyGen.Proofs.NamesInPlace
import TinyGen.Proofs.Uses

/-!
# Refused events

What is left of a builder when it refuses an event.

* Statements are built all or nothing. An event is refused at the first name that it looks up and
  that is not declared, and the builder is as it was (`Statement.Builder.raise_refusedAt`).
* Symbols are declared one by one. Those that the event has before the repeated one are kept
  (`ScopeTable.Builder.Sound.refused`).

Main statement: `refused_events_keep`, which says both.
-/

namespace TinyGen

open ParseTree

/-! ## Statements -/

namespace Statement.Builder

variable {b : Builder} {uses : List Use} {step : Step Fault Builder} {e : Error}

/-- The names that an event looks up, in order. An atom is looked up only while an assignment is
open. -/
def lookups (b : Builder) (event : Event) : List Use :=
  usesIn b.scopes.visible (event.uses (if b.assign.isSome then .assigning else .executing))

/-- `step` ends in `b` again, with the error of the first of `uses` that is not declared. If all
are, then it ends with no error. -/
def RefusedAt (b : Builder) (uses : List Use) (step : Step Fault Builder) : Prop :=
  match uses.find? (·.undeclaredIn b.table) with
  | some use => step = .stop b (.error (.undeclaredVariable use.ident))
  | none => ∀ e, step.fault ≠ some (.error e)

theorem RefusedAt.error_iff (h : b.RefusedAt uses step) :
    step.fault = some (.error e) ↔ ∃ use, uses.find? (·.undeclaredIn b.table) = some use ∧
      e = .undeclaredVariable use.ident := by
  rw [RefusedAt] at h
  cases hfirst : uses.find? (·.undeclaredIn b.table) with
  | some use =>
    rw [hfirst] at h
    simp [h, Step.stop, eq_comm]
  | none =>
    rw [hfirst] at h
    simp [h e]

theorem RefusedAt.state_eq (h : b.RefusedAt uses step) (he : step.fault = some (.error e)) :
    step.state = b := by
  obtain ⟨use, hfirst, -⟩ := h.error_iff.mp he
  rw [RefusedAt, hfirst] at h
  rw [h]
  rfl

theorem refusedAt_nil (h : ∀ e, step.fault ≠ some (.error e)) : b.RefusedAt [] step := h

theorem refusedAt_ok (b b' : Builder) : b.RefusedAt [] (.ok b') := by
  intro e h
  cases h

/-- A step that looks names up before it changes anything. -/
theorem refusedAt_of_failsAt {α : Type} {x : Except Error α} (hx : FailsAt b.table uses x)
    (herror : ∀ e, x = .error e → step = .stop b (.error e))
    (hok : ∀ value, x = .ok value → step.fault = none) : b.RefusedAt uses step := by
  rw [FailsAt] at hx
  rw [RefusedAt]
  cases hfirst : uses.find? (·.undeclaredIn b.table) with
  | some use =>
    rw [hfirst] at hx
    exact herror _ hx
  | none =>
    rw [hfirst] at hx
    obtain ⟨value, hvalue⟩ := hx
    simp [hok value hvalue]

theorem pushResolved_refusedAt (b : Builder) (statement : List VarRef → Statement)
    (idents : List String) :
    b.RefusedAt (usesIn b.scopes.visible idents) (b.pushResolved statement idents) := by
  have hx : FailsAt b.table (usesIn b.scopes.visible idents) (b.resolveAll idents) := by
    rw [resolveAll_eq, resolve_eq]
    exact mapM_resolveIn_failsAt b.table b.scopes.visible idents
  refine refusedAt_of_failsAt hx (fun e he => ?_) fun vars hvars => ?_
  · rw [pushResolved, he]
  · rw [pushResolved, hvars]
    rfl

theorem resolve_failsAt (b : Builder) (ident : String) :
    FailsAt b.table (usesIn b.scopes.visible [ident]) (b.resolve ident) := by
  rw [resolve_eq]
  exact resolveIn_failsAt b.table b.scopes.visible ident

theorem enterAssign_refusedAt (b : Builder) (target : String) :
    b.RefusedAt (usesIn b.scopes.visible [target]) (b.enterAssign target) := by
  refine refusedAt_of_failsAt (b.resolve_failsAt target) (fun e he => ?_) fun v hv => ?_
  · rw [enterAssign, he]
  · rw [enterAssign, hv]
    rfl

theorem enterAtom_refusedAt (b : Builder) (text : String) :
    b.RefusedAt (b.lookups (.enterAtom text)) (b.enterAtom text) := by
  cases ha : b.assign with
  | none =>
    simp only [lookups, Event.uses, enterAtom, ha]
    exact refusedAt_ok b _
  | some a =>
    by_cases hnumeral : Text.isNumeral text = true
    · simp only [lookups, Event.uses, enterAtom, operand, ha, hnumeral]
      exact refusedAt_ok b _
    · simp only [lookups, Event.uses, enterAtom, operand, ha, hnumeral]
      refine refusedAt_of_failsAt (b.resolve_failsAt text) (fun e he => ?_) fun v hv => ?_
      · rw [he]
        rfl
      · rw [hv]
        rfl

theorem modifyAssign_not_refused (b : Builder) (change : OpenAssign → Except Misuse OpenAssign)
    (e : Error) : (b.modifyAssign change).fault ≠ some (.error e) := by
  rw [modifyAssign]
  cases b.assign with
  | none => simp [Step.ok]
  | some a => cases h : change a <;> simp [h, Step.ok, Step.stop]

private theorem exitAssign_not_refused (b : Builder) (e : Error) :
    b.exitAssign.fault ≠ some (.error e) := by
  rw [exitAssign]
  cases b.assign with
  | none => simp [Step.ok]
  | some a => cases h : a.finish <;> simp [h, Step.ok, Step.stop]

theorem call_not_refused (b : Builder) (c : ScopeStack.Call) (e : Error) :
    (b.call c).fault ≠ some (.error e) := by
  rw [call]
  cases b.scopes.apply c <;> simp [Step.ok, Step.stop]

/-- Events are refused only for names that they look up. The others can go wrong by misuse. -/
theorem raise_refusedAt (b : Builder) (event : Event) :
    b.RefusedAt (b.lookups event) (b.raise event) := by
  cases hc : event.scopeCall? with
  | some c =>
    have hnone : b.lookups event = [] := by
      cases event <;> first | rfl | cases hc
    simp only [hnone, raise, hc]
    exact refusedAt_nil (b.call_not_refused c)
  | none =>
    cases event with
    | enterAssign target => exact b.enterAssign_refusedAt target
    | read idents => exact b.pushResolved_refusedAt .read idents
    | write idents => exact b.pushResolved_refusedAt .write idents
    | enterAtom text => exact b.enterAtom_refusedAt text
    | exitAssign target => exact refusedAt_nil b.exitAssign_not_refused
    | addOp op => exact refusedAt_nil (b.modifyAssign_not_refused _)
    | mulOp op => exact refusedAt_nil (b.modifyAssign_not_refused _)
    | enterGroup inner => exact refusedAt_nil (b.modifyAssign_not_refused _)
    | exitGroup inner => exact refusedAt_nil (b.modifyAssign_not_refused _)
    | varDecl ty idents => exact refusedAt_ok b _
    | paramDecls params => exact refusedAt_ok b _
    | stringDecl ident literal => exact refusedAt_ok b _
    | exitElse => exact refusedAt_ok b _
    | exitAtom text => exact refusedAt_ok b _
    | _ => cases hc

end Statement.Builder

/-! ## Symbols -/

namespace ScopeTable.Builder

variable {b b' : Builder} {event : Event} {scope : ScopeId} {ident : String}

/-- `b'` is what is left of `b` when it refuses to declare `ident` in `scope`: the scopes are as
they were, but for the innermost one. It has gained the symbols of the event that come before the
first one with the name and the type of another, which is called `ident`. -/
structure Refused (b : Builder) (event : Event) (scope : ScopeId) (ident : String) (b' : Builder) :
    Prop where
  current : b.scopes.current = some scope
  scopes_eq : b'.scopes = b.scopes
  ids_eq : b'.table.ids = b.table.ids
  other : ∀ id ≠ scope, b'.table.symbols? id = b.table.symbols? id
  extended : ∃ former before symbol after, event.declared = before ++ symbol :: after ∧
    b.table.symbols? scope = some former ∧ b'.table.symbols? scope = some (former ++ before) ∧
    Distinct (former ++ before) ∧
    (∃ s ∈ former ++ before, s.ident = symbol.ident ∧ s.ty = symbol.ty) ∧ symbol.ident = ident

theorem declare_refused {symbol : Symbol} {e : Error}
    (h : (b.declare symbol).fault = some (.error e)) :
    (b.declare symbol).state = b ∧ ∃ id, b.scopes.current = some id ∧
      e = .duplicateDeclaration id symbol.ident ∧
      ∃ s ∈ b.declaredIn id, s.ident = symbol.ident ∧ s.ty = symbol.ty := by
  rcases declare_cases b symbol with hstep | ⟨id, hid, ⟨hclash, hstep⟩ | ⟨-, hstep⟩⟩ <;>
    rw [hstep] at h ⊢ <;> cases h
  exact ⟨rfl, id, hid, rfl, any_clashes_iff.mp hclash⟩

/-- Where the declaration of a list stops: all that comes before the refused symbol is declared. -/
theorem declareAll_refused {symbols : List Symbol} {fault : Fault}
    (h : (b.declareAll symbols).fault = some fault) :
    ∃ before symbol after b₁, symbols = before ++ symbol :: after ∧ b.declareAll before = .ok b₁ ∧
      b.declareAll symbols = b₁.declare symbol ∧ (b₁.declare symbol).fault = some fault := by
  induction symbols generalizing b with
  | nil => cases h
  | cons symbol rest ih =>
    rw [declareAll] at h ⊢
    cases hfirst : b.declare symbol with
    | mk b₁ stopped =>
      rw [hfirst] at h
      cases stopped with
      | none =>
        obtain ⟨before, symbol', after, b₂, rfl, hbefore, hall, hstop⟩ := ih h
        refine ⟨symbol :: before, symbol', after, b₂, rfl, ?_, hall, hstop⟩
        rw [declareAll, hfirst]
        exact hbefore
      | some fault' =>
        refine ⟨[], symbol, rest, b, rfl, rfl, hfirst.symm, ?_⟩
        rw [hfirst]
        exact h

theorem scopes_declareAll {symbols : List Symbol} (h : b.declareAll symbols = .ok b') :
    b'.scopes = b.scopes := by
  by_cases hsymbols : symbols = []
  · subst hsymbols
    cases h
    rfl
  · obtain ⟨id, -, rfl⟩ := declareAll_ok h hsymbols
    rfl

/-- What declarations do to a scope of the table, and that they leave the others alone. -/
theorem declareAll_extends {symbols former : List Symbol} (h : b.declareAll symbols = .ok b')
    (hcurrent : b.scopes.current = some scope) (hformer : b.table.symbols? scope = some former) :
    b'.table.ids = b.table.ids ∧ (∀ id ≠ scope, b'.table.symbols? id = b.table.symbols? id) ∧
      b'.table.symbols? scope = some (former ++ symbols) := by
  by_cases hsymbols : symbols = []
  · subst hsymbols
    cases h
    exact ⟨rfl, fun _ _ => rfl, by rw [hformer, List.append_nil]⟩
  · obtain ⟨id, hid, rfl⟩ := declareAll_ok h hsymbols
    obtain rfl : scope = id := Option.some.inj (hcurrent.symm.trans hid)
    have hin : scope ∈ b.table.ids := by
      rw [mem_ids_iff, contains, hformer]
      rfl
    refine ⟨ids_insert_of_mem hin _, fun id hne => ?_, ?_⟩
    · rw [symbols?_insert, if_neg hne]
    · rw [symbols?_insert, if_pos rfl, declaredIn, hformer]
      rfl

theorem call_not_refused (b : Builder) (c : ScopeStack.Call) (e : Error) :
    (b.call c).fault ≠ some (.error e) := by
  rcases b.call_cases c with ⟨m, hstep⟩ | ⟨s, id, -, -, hstep⟩ | ⟨s, -, -, hstep⟩ <;> rw [hstep]
  · simp [Step.stop]
  · simp [Step.ok]
  · simp [Step.ok]

/-- In a builder in order, the symbols kept are those before the first one that is repeated. -/
theorem Sound.refused (hb : b.Sound)
    (h : (b.raise event).fault = some (.error (.duplicateDeclaration scope ident))) :
    b.Refused event scope ident (b.raise event).state := by
  cases hc : event.scopeCall? with
  | some c =>
    rw [raise_of_call hc] at h
    exact absurd h (b.call_not_refused c _)
  | none =>
    rw [raise_of_no_call hc] at h ⊢
    obtain ⟨before, symbol, after, b₁, hsymbols, hbefore, hall, hstop⟩ := declareAll_refused h
    obtain ⟨hstate, id, hid, hdup, hclash⟩ := declare_refused hstop
    obtain ⟨rfl, rfl⟩ := Error.duplicateDeclaration.inj hdup
    have hscopes := scopes_declareAll hbefore
    have hcurrent : b.scopes.current = some scope := hscopes ▸ hid
    obtain ⟨former, hformer⟩ : ∃ former, b.table.symbols? scope = some former :=
      Option.isSome_iff_exists.mp (hb.registered scope (List.mem_of_mem_head? hcurrent))
    obtain ⟨hids, hother, hextended⟩ := declareAll_extends hbefore hcurrent hformer
    have hdistinct : Distinct (former ++ before) := by
      have hb₁ := hb.declareAll before
      rw [hbefore] at hb₁
      exact hb₁.distinct scope _ hextended
    rw [declaredIn, hextended] at hclash
    rw [hall, hstate]
    exact ⟨hcurrent, hscopes, hids, hother, former, before, symbol, after, hsymbols, hformer,
      hextended, hdistinct, hclash, rfl⟩

end ScopeTable.Builder

/-! ## Both builders -/

/-- **What is left when an event is refused.** Statements under construction, with an assignment open
or not, are as they were before an event that ends with an error; that is an event that looks up a
name without a visible declaration. A scope table that refuses a declaration has gained the symbols of
the event up to the repeated one, in the innermost scope, and is otherwise as it was. -/
theorem refused_events_keep :
    (∀ (b : Statement.Builder) (event : Event) (e : Error),
      ((b.raise event).fault = some (.error e) → (b.raise event).state = b) ∧
      ((b.raise event).fault = some (.error e) ↔
        ∃ use, (b.lookups event).find? (·.undeclaredIn b.table) = some use ∧
          e = .undeclaredVariable use.ident)) ∧
    ∀ (b : ScopeTable.Builder) (event : Event) (scope : ScopeId) (ident : String), b.Reachable →
      (b.raise event).fault = some (.error (.duplicateDeclaration scope ident)) →
      b.Refused event scope ident (b.raise event).state :=
  ⟨fun b event _ => ⟨(b.raise_refusedAt event).state_eq, (b.raise_refusedAt event).error_iff⟩,
    fun _ _ _ _ hb h => hb.sound.refused h⟩

/-- An assignment waits for its second operand when two names are to be read, of which the second is
not declared. Of four names to be declared, the third repeats the first. -/
theorem refused_events_keep_in_lists :
    let scopes : ScopeStack := ⟨[.global], 1, []⟩
    let table : ScopeTable := ⟨[(.global, [⟨"a", .num .int⟩])]⟩
    let statements : Statement.Builder :=
      ⟨table, scopes, [.write []], some ⟨⟨"a", .int⟩, [.literal "1"], [.operator .add]⟩⟩
    let names : Event := .read ["a", "b"]
    let symbols : ScopeTable.Builder := ⟨table, scopes⟩
    let event : Event := .varDecl .int ["b", "c", "b", "d"]
    (statements.raise names).fault = some (.error (.undeclaredVariable "b")) ∧
    (statements.raise names).state = statements ∧ symbols.Reachable ∧
    (symbols.raise event).fault = some (.error (.duplicateDeclaration .global "b")) ∧
    symbols.Refused event .global "b" (symbols.raise event).state ∧
    (symbols.raise event).state.declaredIn .global =
      [⟨"a", .num .int⟩, ⟨"b", .num .int⟩, ⟨"c", .num .int⟩] := by
  intro scopes table statements names symbols event
  have hnames : (statements.raise names).fault = some (.error (.undeclaredVariable "b")) := rfl
  have hsymbols : symbols.Reachable :=
    (ScopeTable.Builder.Reachable.empty.raise (.enterProgram "p") nofun).raise
      (.varDecl .int ["a"]) nofun
  have hevent : (symbols.raise event).fault =
    some (.error (.duplicateDeclaration .global "b")) := rfl
  obtain ⟨hkept, hrefused⟩ := refused_events_keep
  exact ⟨hnames, (hkept statements names _).1 hnames, hsymbols, hevent,
    hrefused symbols event .global "b" hsymbols hevent, rfl⟩

end TinyGen
