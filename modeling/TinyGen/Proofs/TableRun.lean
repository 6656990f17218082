import TinyGen.Log
import TinyGen.Proofs.Events
import TinyGen.Proofs.ScopeStack
import TinyGen.Proofs.ScopeTable

/-!
# A scope table under construction

`ScopeTable.Builder.raise_cases` lists all that an event can do to a table under construction. What a
run keeps follows from it: every open scope is in the table (`registered_run`), and a symbol was
declared by some event of the run in the scope that has it (`declaredBy_run`).

Main statement: `Program.symbols?_kept`. Once a body has come to its statements, all the scopes in
the table have the symbols that they will have in the end, if no scope is opened twice. That a scope
is opened twice is told by a record of the log.
-/

namespace TinyGen

open ParseTree

namespace ScopeStack

/-- The open scopes after an event. -/
def follow (s : ScopeStack) (event : Event) : Except Misuse ScopeStack :=
  match event.scopeCall? with
  | none => .ok s
  | some c => s.apply c

end ScopeStack

namespace Phase

variable {phase : Phase} {event : Event}

/-- After an event that changes no scopes, a body is at its declarations only if it was before. -/
theorem declaring_of_after (hc : event.scopeCall? = none) (h : phase.after event = .declaring) :
    phase = .declaring := by
  cases event <;> simp_all [after, Event.scopeCall?]

private theorem after_of_closes {c : ScopeStack.Call} (hc : event.scopeCall? = some c)
    (ho : c.opens = false) : phase.after event = .executing := by
  cases event <;> cases hc <;> first | rfl | cases ho

end Phase

/-! ## What an event does to a table under construction -/

namespace ScopeTable.Builder

variable {b b' : Builder} {event : Event}

/-- Everything that the declaration of a symbol can lead to. -/
theorem declare_cases (b : Builder) (symbol : Symbol) :
    b.declare symbol = .stop b (.misuse .declarationOutsideScope) ∨
    ∃ id, b.scopes.current = some id ∧
      ((b.declaredIn id).any (·.clashes symbol) = true ∧
          b.declare symbol = .stop b (.error (.duplicateDeclaration id symbol.ident)) ∨
        ¬ (b.declaredIn id).any (·.clashes symbol) = true ∧
          b.declare symbol =
            .ok { b with table := b.table.insert id (b.declaredIn id ++ [symbol]) }) := by
  cases hid : b.scopes.current with
  | none => exact .inl (by simp only [declare, hid])
  | some id =>
    refine .inr ⟨id, rfl, ?_⟩
    by_cases hclash : (b.declaredIn id).any (·.clashes symbol) = true
    · exact .inl ⟨hclash, by simp only [declare, hid, hclash, ↓reduceIte]⟩
    · exact .inr ⟨hclash, by simp only [declare, hid, if_neg hclash]⟩

theorem declare_ok {symbol : Symbol} (h : b.declare symbol = .ok b') :
    ∃ id, b.scopes.current = some id ∧
      b' = { b with table := b.table.insert id (b.declaredIn id ++ [symbol]) } := by
  rcases declare_cases b symbol with hstep | ⟨id, hid, ⟨-, hstep⟩ | ⟨-, hstep⟩⟩ <;> rw [hstep] at h
  · exact absurd h Step.stop_ne_ok
  · exact absurd h Step.stop_ne_ok
  · cases h
    exact ⟨id, hid, rfl⟩

/-- Symbols that are declared go to the end of the current scope, in order. -/
theorem declareAll_ok {symbols : List Symbol} (h : b.declareAll symbols = .ok b')
    (hne : symbols ≠ []) :
    ∃ id, b.scopes.current = some id ∧
      b' = { b with table := b.table.insert id (b.declaredIn id ++ symbols) } := by
  induction symbols generalizing b with
  | nil => exact absurd rfl hne
  | cons symbol rest ih =>
    obtain ⟨b₁, h₁, hr⟩ := Step.andThen_eq_ok_iff.mp h
    obtain ⟨id, hid, rfl⟩ := declare_ok h₁
    cases rest with
    | nil =>
      cases hr
      exact ⟨id, hid, rfl⟩
    | cons next rest =>
      obtain ⟨id', hid', rfl⟩ := ih hr (List.cons_ne_nil _ _)
      obtain rfl : id = id' := Option.some.inj (hid.symm.trans hid')
      refine ⟨id, hid, ?_⟩
      simp only [declaredIn, symbols?_insert, insert_insert, ↓reduceIte, Option.getD_some,
        List.append_assoc, List.singleton_append]

private theorem scopes_openCurrent (b : Builder) : b.openCurrent.scopes = b.scopes := by
  unfold openCurrent
  split <;> rfl

/-- A call moves the scopes, and registers the scope it opens. -/
theorem call_ok {c : ScopeStack.Call} (h : b.call c = .ok b') :
    b.scopes.apply c = .ok b'.scopes ∧
      b'.table = if c.opens then ({ b with scopes := b'.scopes } : Builder).openCurrent.table
        else b.table := by
  rw [call] at h
  cases ha : b.scopes.apply c with
  | error misuse =>
    simp only [ha] at h
    exact absurd h Step.stop_ne_ok
  | ok scopes =>
    simp only [ha] at h
    cases ho : c.opens with
    | true =>
      obtain rfl : openCurrent { b with scopes } = b' := by simpa [ho, Step.ok] using h
      simp only [scopes_openCurrent, ↓reduceIte, and_self]
    | false =>
      obtain rfl : { b with scopes } = b' := by simpa [ho, Step.ok] using h
      exact ⟨rfl, rfl⟩

theorem raise_of_call {c : ScopeStack.Call} (hc : event.scopeCall? = some c) :
    b.raise event = b.call c := by
  rw [raise, hc]

theorem raise_of_no_call (hc : event.scopeCall? = none) :
    b.raise event = b.declareAll event.declared := by
  rw [raise, hc]

/-- The scopes of the builder follow the events. -/
theorem raise_follow (h : b.raise event = .ok b') : b.scopes.follow event = .ok b'.scopes := by
  rw [ScopeStack.follow]
  cases hc : event.scopeCall? with
  | none =>
    rw [raise_of_no_call hc] at h
    by_cases hd : event.declared = []
    · rw [hd] at h
      cases h
      rfl
    · obtain ⟨id, -, rfl⟩ := declareAll_ok h hd
      rfl
  | some c =>
    rw [raise_of_call hc] at h
    exact (call_ok h).1

/-- Everything an event can do that is taken in without a fault. It opens a scope, which is empty
then, with a warning if it was there before. Or it leaves the table and opens nothing, and a body
that was being declared is so still only if nothing was closed. Or it declares symbols in the
innermost scope. -/
theorem raise_cases (h : b.raise event = .ok b') :
    (∃ id, b'.scopes.active = id :: b.scopes.active ∧ b'.table = b.table.insert id [] ∧
      (b.table.contains id = true → .openedAgain id ∈ notes b event b')) ∨
    (b'.scopes.active ⊆ b.scopes.active ∧ b'.table = b.table ∧
      ∀ phase : Phase, phase.after event = .declaring → phase = .declaring ∧ b' = b) ∨
    (∃ id, b.scopes.current = some id ∧ event.declared ≠ [] ∧
      b' = { b with table := b.table.insert id (b.declaredIn id ++ event.declared) }) := by
  cases hc : event.scopeCall? with
  | none =>
    rw [raise_of_no_call hc] at h
    by_cases hd : event.declared = []
    · rw [hd] at h
      cases h
      exact .inr (.inl ⟨List.Subset.refl _, rfl, fun _ hp => ⟨Phase.declaring_of_after hc hp, rfl⟩⟩)
    · obtain ⟨id, hid, hb⟩ := declareAll_ok h hd
      exact .inr (.inr ⟨id, hid, hd, hb⟩)
  | some c =>
    rw [raise_of_call hc] at h
    obtain ⟨hs, ht⟩ := call_ok h
    cases ho : c.opens with
    | true =>
      obtain ⟨id, hid⟩ := ScopeStack.active_of_opens hs ho
      have hcur : b'.scopes.current = some id := by
        rw [ScopeStack.current, hid]
        rfl
      rw [if_pos ho] at ht
      refine .inl ⟨id, hid, ?_, fun hcon => ?_⟩
      · rw [ht]
        simp only [openCurrent, hcur]
      · simp [notes, hc, hs, ho, hcur, hcon]
    | false =>
      rw [if_neg (by simp [ho])] at ht
      refine .inr (.inl ⟨ScopeStack.active_of_closes hs ho, ht, fun phase hp => ?_⟩)
      rw [Phase.after_of_closes hc ho] at hp
      cases hp

/-! ## Scopes that are open are in the table -/

/-- Every open scope is in the table. -/
def Registered (b : Builder) : Prop :=
  ∀ id ∈ b.scopes.active, b.table.contains id = true

/-- An event keeps every open scope in the table. -/
theorem Registered.raise (hb : b.Registered) (h : b.raise event = .ok b') : b'.Registered := by
  rcases raise_cases h with ⟨id, hs, ht, -⟩ | ⟨hs, ht, -⟩ | ⟨id, -, -, rfl⟩
  · intro id' hid'
    rw [ht, contains_insert]
    rw [hs] at hid'
    rcases List.mem_cons.mp hid' with rfl | hid'
    · simp
    · simp [hb id' hid']
  · intro id' hid'
    rw [ht]
    exact hb id' (hs hid')
  · intro id' hid'
    rw [contains_insert, hb id' hid', Bool.or_true]

theorem registered_run {events : List Event} (h : Step.run Builder.raise events .empty = .ok b) :
    b.Registered := by
  refine Step.run_induction (motive := fun _ b => b.Registered) h ?_ ?_
  · intro id hid
    cases hid
  · intro _ event _ s s' _ _ hstep _ hs
    exact hs.raise hstep

/-! ## Where symbols come from -/

/-- A symbol comes into a scope only by a declaration while the scope is current. -/
theorem mem_declaredIn_raise {id : ScopeId} {symbol : Symbol} (h : b.raise event = .ok b')
    (hm : symbol ∈ b'.declaredIn id) :
    symbol ∈ b.declaredIn id ∨ symbol ∈ event.declared ∧ b.scopes.current = some id := by
  rcases raise_cases h with ⟨opened, -, ht, -⟩ | ⟨-, ht, -⟩ | ⟨current, hc, -, rfl⟩
  · rw [declaredIn, ht, symbols?_insert] at hm
    split at hm
    · cases hm
    · exact .inl hm
  · rw [declaredIn, ht] at hm
    exact .inl hm
  · rw [declaredIn, symbols?_insert] at hm
    split at hm
    case isTrue he =>
      subst he
      rcases List.mem_append.mp hm with hm | hm
      · exact .inl hm
      · exact .inr ⟨hm, hc⟩
    case isFalse => exact .inl hm

/-- One of the events declares the symbol, and the scope is the innermost one there. -/
def DeclaredBy (events : List Event) (id : ScopeId) (symbol : Symbol) : Prop :=
  ∃ earlier declaration later b₀, events = earlier ++ declaration :: later ∧
    Step.run raise earlier .empty = .ok b₀ ∧ b₀.scopes.current = some id ∧
    symbol ∈ declaration.declared

/-- Each symbol in the table was declared while its scope was current. -/
theorem declaredBy_run {events : List Event} {id : ScopeId} {symbol : Symbol}
    (h : Step.run raise events .empty = .ok b) :
    symbol ∈ b.declaredIn id → DeclaredBy events id symbol := by
  refine Step.run_induction
    (motive := fun events b => symbol ∈ b.declaredIn id → DeclaredBy events id symbol) h ?_ ?_
  · intro hm
    cases hm
  · intro before event _ s s' _ hrun hstep _ ih hm
    rcases mem_declaredIn_raise hstep hm with hm | ⟨hd, hc⟩
    · obtain ⟨earlier, declaration, later, b₀, rfl, hrun₀, hcur, hd⟩ := ih hm
      exact ⟨earlier, declaration, later ++ [event], b₀, by simp, hrun₀, hcur, hd⟩
    · exact ⟨before, event, [], s, rfl, hrun, hc, hd⟩

end ScopeTable.Builder

/-! ## The log of a run -/

section Logged

variable {ε σ : Type} {visit : σ → Event → Step ε σ} (notes : σ → Event → σ → List LogRecord)
  {s₀ s s' sₙ : σ} {event : Event}

theorem logged_of_ok (h : visit s event = .ok s') (log : List LogRecord) :
    logged visit notes (s, log) event = .ok (s', log ++ notes s event s') := by
  rw [logged, h]
  rfl

/-- Logging changes no result. -/
theorem run_logged {events : List Event} (h : Step.run visit events s = .ok s')
    (log : List LogRecord) :
    ∃ more, Step.run (logged visit notes) events (s, log) = .ok (s', log ++ more) := by
  induction events generalizing s log with
  | nil =>
    cases h
    exact ⟨[], by rw [List.append_nil]; rfl⟩
  | cons event rest ih =>
    obtain ⟨s₁, hv, hr⟩ := Step.andThen_eq_ok_iff.mp h
    obtain ⟨more, hm⟩ := ih hr (log ++ notes s event s₁)
    refine ⟨notes s event s₁ ++ more, ?_⟩
    rw [Step.run, logged_of_ok notes hv, Step.ok_andThen, hm, List.append_assoc]

/-- The records of an event are in the log of a run without a fault. -/
theorem mem_log {before after : List Event} (hb : Step.run visit before s₀ = .ok s)
    (hv : visit s event = .ok s') (ha : Step.run visit after s' = .ok sₙ) {record : LogRecord}
    (hr : record ∈ notes s event s') :
    record ∈ (Step.run (logged visit notes) (before ++ event :: after) (s₀, [])).state.2 := by
  obtain ⟨log, hlog⟩ := run_logged notes hb []
  obtain ⟨more, hmore⟩ := run_logged notes ha ([] ++ log ++ notes s event s')
  rw [Step.run_append, hlog, Step.ok_andThen, Step.run, logged_of_ok notes hv, Step.ok_andThen,
    hmore]
  exact List.mem_append_left _ (List.mem_append_right _ hr)

end Logged

/-! ## Scopes are complete at the first statement -/

namespace Phase

variable {phase : Phase} {event : Event}

/-- Only a body that is being declared admits declarations. -/
theorem declaring_of_admits (h : phase.Admits event) (hd : event.declared ≠ []) :
    phase = .declaring := by
  cases phase with
  | declaring => rfl
  | executing => exact absurd h hd
  | assigning =>
    rcases h with h | ⟨target, rfl⟩
    · exact absurd (declared_of_inExpr h) hd
    · exact absurd rfl hd

end Phase

namespace ScopeTable.Builder

variable {b b' : Builder} {event : Event} {t : ScopeTable} {phase : Phase}

/-- All scopes of `t` have the symbols that they have in `t`, and a body that is being declared is
not one of them. -/
structure Finished (t : ScopeTable) (phase : Phase) (b : Builder) : Prop where
  kept : ∀ id symbols, t.symbols? id = some symbols → b.table.symbols? id = some symbols
  other : phase = .declaring → ∀ id, b.scopes.current = some id → t.symbols? id = none

/-- A scope that is finished is not written to. -/
theorem Finished.insert {id : ScopeId} (h : Finished t phase b) (hid : t.symbols? id = none)
    (symbols : List Symbol) {id' : ScopeId} {symbols' : List Symbol}
    (hs : t.symbols? id' = some symbols') :
    (b.table.insert id symbols).symbols? id' = some symbols' := by
  have hne : id' ≠ id := by
    rintro rfl
    rw [hid] at hs
    cases hs
  rw [symbols?_insert, if_neg hne]
  exact h.kept id' symbols' hs

/-- An event in its place that opens no scope again leaves finished scopes alone. -/
theorem Finished.raise (h : Finished t phase b) (ha : phase.Admits event)
    (hr : b.raise event = .ok b') (honce : ∀ id, .openedAgain id ∉ notes b event b') :
    Finished t (phase.after event) b' := by
  rcases raise_cases hr with ⟨id, hact, ht, hwarn⟩ | ⟨-, ht, hdecl⟩ | ⟨id, hcur, hd, rfl⟩
  -- A scope is opened. It is a new one, since no record tells of the contrary.
  · have hnew : b.table.symbols? id = none :=
      Option.not_isSome_iff_eq_none.mp fun hc => honce id (hwarn hc)
    have hid : t.symbols? id = none := by
      cases ho : t.symbols? id with
      | none => rfl
      | some symbols =>
        rw [h.kept id symbols ho] at hnew
        cases hnew
    refine ⟨fun id' symbols' hs => ?_, fun _ id' hid' => ?_⟩
    · rw [ht]
      exact h.insert hid [] hs
    · rw [ScopeStack.current, hact] at hid'
      cases hid'
      exact hid
  · refine ⟨fun id symbols hs => ?_, fun hp id hid => ?_⟩
    · rw [ht]
      exact h.kept id symbols hs
    · obtain ⟨hp, rfl⟩ := hdecl phase hp
      exact h.other hp id hid
  -- Symbols are declared in the current scope, which is not a finished one.
  · have hid := h.other (Phase.declaring_of_admits ha hd) id hcur
    refine ⟨fun id' symbols' hs => h.insert hid _ hs, fun _ id' hid' => ?_⟩
    obtain rfl : id = id' := Option.some.inj (hcur.symm.trans hid')
    exact hid

end ScopeTable.Builder

namespace ParseTree

open ScopeTable.Builder

/-- Past the declarations of a body, every scope that has been opened keeps its symbols to the end of
the walk, if no scope is opened twice. -/
theorem Program.symbols?_kept {program : Program} {b final : ScopeTable.Builder}
    {before after : List Event} (hevents : program.events = before ++ after)
    (hb : Step.run raise before .empty = .ok b) (ha : Step.run raise after b = .ok final)
    (honce : ∀ id, .openedAgain id ∉ program.tableLog)
    (hphase : Phase.executing.afterAll before ≠ .declaring) :
    Finished b.table (Phase.executing.afterAll program.events) final := by
  rw [hevents]
  refine Step.run_induction
    (motive := fun a s => Finished b.table (Phase.executing.afterAll (before ++ a)) s) ha ?_ ?_
  · rw [List.append_nil]
    exact ⟨fun _ _ h => h, fun h => absurd h hphase⟩
  · rintro a event rest s s' rfl hs hstep hrest hkept
    have hsplit : program.events = (before ++ a) ++ event :: rest := by
      rw [hevents, List.append_assoc]
    have hrun : Step.run raise (before ++ a) .empty = .ok s :=
      Step.run_append_eq_ok_iff.mpr ⟨b, hb, hs⟩
    rw [← List.append_assoc, Phase.afterAll_append]
    refine hkept.raise (Program.admits_event hsplit) hstep fun id hid => honce id ?_
    rw [Program.tableLog, Program.walk_eq_run, hsplit]
    exact mem_log notes hrun hstep hrest hid

/-- A table comes from a run that handles all events. -/
theorem Program.run_of_scopeTable {program : Program} {table : ScopeTable}
    (h : program.scopeTable = .ok table) :
    ∃ final, Step.run ScopeTable.Builder.raise program.events .empty = .ok final ∧
      final.table = table := by
  rw [Program.scopeTable, Program.walk_eq_run] at h
  cases hr : (Step.run ScopeTable.Builder.raise program.events .empty).result with
  | error fault =>
    rw [hr] at h
    cases h
  | ok final =>
    rw [hr] at h
    exact ⟨final, Step.result_eq_ok_iff.mp hr, Except.ok.inj h⟩

end ParseTree

end TinyGen
