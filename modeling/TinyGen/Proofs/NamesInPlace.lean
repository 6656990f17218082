import TinyGen.Proofs.TableRun
import TinyGen.Statement.Builder

/-!
# Names are used after their declarations

Scope table and statements are built in two walks: the second looks names up in the table that the
first has finished. `Program.lookup?_at_use`: it finds what one walk would have found, which knows
the declarations before the use and no others.
-/

namespace TinyGen

open ParseTree

/-! ## Both walks follow the same scopes -/

namespace Statement.Builder

variable {b b' : Builder} {event : Event} {phase : Phase}

theorem modifyAssign_ok {change : OpenAssign → Except Misuse OpenAssign}
    (h : b.modifyAssign change = .ok b') :
    b'.scopes = b.scopes ∧ b'.table = b.table ∧ b'.assign.isSome = b.assign.isSome := by
  cases ha : b.assign with
  | none =>
    simp only [modifyAssign, ha] at h
    cases h
    exact ⟨rfl, rfl, congrArg Option.isSome ha⟩
  | some a =>
    cases hc : change a with
    | error m =>
      simp only [modifyAssign, ha, hc] at h
      exact absurd h Step.stop_ne_ok
    | ok a' =>
      simp only [modifyAssign, ha, hc] at h
      cases h
      exact ⟨rfl, rfl, rfl⟩

private theorem enterAtom_ok {text : String} (h : b.enterAtom text = .ok b') :
    b'.scopes = b.scopes ∧ b'.table = b.table ∧ b'.assign.isSome = b.assign.isSome := by
  cases ha : b.assign with
  | none =>
    simp only [enterAtom, ha] at h
    cases h
    exact ⟨rfl, rfl, congrArg Option.isSome ha⟩
  | some a =>
    cases ho : b.operand text with
    | error e =>
      simp only [enterAtom, ha, ho] at h
      exact absurd h Step.stop_ne_ok
    | ok t =>
      simp only [enterAtom, ha, ho] at h
      cases h
      exact ⟨rfl, rfl, rfl⟩

private theorem enterAssign_ok {target : String} (h : b.enterAssign target = .ok b') :
    b'.scopes = b.scopes ∧ b'.table = b.table ∧ b'.assign.isSome = true := by
  cases hr : b.resolve target with
  | error e =>
    simp only [enterAssign, hr] at h
    exact absurd h Step.stop_ne_ok
  | ok v =>
    simp only [enterAssign, hr] at h
    cases h
    exact ⟨rfl, rfl, rfl⟩

private theorem exitAssign_ok (h : b.exitAssign = .ok b') :
    b'.scopes = b.scopes ∧ b'.table = b.table ∧ b'.assign = none := by
  cases ha : b.assign with
  | none =>
    simp only [exitAssign, ha] at h
    cases h
    exact ⟨rfl, rfl, ha⟩
  | some a =>
    cases hf : a.finish with
    | error m =>
      simp only [exitAssign, ha, hf] at h
      exact absurd h Step.stop_ne_ok
    | ok statement =>
      simp only [exitAssign, ha, hf] at h
      cases h
      exact ⟨rfl, rfl, rfl⟩

theorem pushResolved_ok {statement : List VarRef → Statement} {idents : List String}
    (h : b.pushResolved statement idents = .ok b') :
    b'.scopes = b.scopes ∧ b'.table = b.table ∧ b'.assign = b.assign := by
  cases hr : b.resolveAll idents with
  | error e =>
    simp only [pushResolved, hr] at h
    exact absurd h Step.stop_ne_ok
  | ok vars =>
    simp only [pushResolved, hr] at h
    cases h
    exact ⟨rfl, rfl, rfl⟩

theorem call_ok {c : ScopeStack.Call} (h : b.call c = .ok b') :
    b.scopes.apply c = .ok b'.scopes ∧ b'.table = b.table ∧ b'.assign = b.assign := by
  cases ha : b.scopes.apply c with
  | error m =>
    simp only [call, ha] at h
    exact absurd h Step.stop_ne_ok
  | ok scopes =>
    simp only [call, ha] at h
    cases h
    exact ⟨rfl, rfl, rfl⟩

/-- The builder works over `table`, and it has an assignment open in the phase of one and in no
other. -/
structure InPhase (table : ScopeTable) (phase : Phase) (b : Builder) : Prop where
  table_eq : b.table = table
  assign : b.assign.isSome = true ↔ phase = .assigning

theorem InPhase.assign_eq_none {table : ScopeTable} (h : InPhase table phase b)
    (hp : phase ≠ .assigning) : b.assign = none := by
  cases ha : b.assign with
  | none => rfl
  | some a => exact absurd (h.assign.mp (by rw [ha]; rfl)) hp

theorem InPhase.of_none {table : ScopeTable} (ht : b'.table = table) (ha : b'.assign = none)
    (hp : phase ≠ .assigning) : InPhase table phase b' := by
  refine ⟨ht, fun hs => ?_, fun hs => absurd hs hp⟩
  rw [ha] at hs
  cases hs

/-- An event within its phase. -/
theorem InPhase.stay {table : ScopeTable} (h : InPhase table phase b)
    (hb : b'.scopes = b.scopes ∧ b'.table = b.table ∧ b'.assign.isSome = b.assign.isSome) :
    (.ok b.scopes : Except Misuse ScopeStack) = .ok b'.scopes ∧ InPhase table phase b' := by
  obtain ⟨hs, ht, ha⟩ := hb
  refine ⟨congrArg _ hs.symm, ht.trans h.table_eq, ?_⟩
  rw [ha]
  exact h.assign

/-- A statement without an assignment. -/
theorem InPhase.execute {table : ScopeTable} (h : InPhase table phase b) (hp : phase ≠ .assigning)
    (hb : b'.scopes = b.scopes ∧ b'.table = b.table ∧ b'.assign = b.assign) :
    (.ok b.scopes : Except Misuse ScopeStack) = .ok b'.scopes ∧ InPhase table .executing b' := by
  obtain ⟨hs, ht, ha⟩ := hb
  exact ⟨congrArg _ hs.symm,
    .of_none (ht.trans h.table_eq) (ha.trans (h.assign_eq_none hp)) Phase.noConfusion⟩

theorem ne_assigning_of_admits (h : phase.Admits event) (he : event.inExpr = false)
    (hx : ∀ target, event ≠ .exitAssign target) : phase ≠ .assigning := by
  rintro rfl
  rcases h with h | ⟨target, rfl⟩
  · rw [he] at h
    cases h
  · exact hx target rfl

/-- An event in its place is followed by the open scopes and by the phase. -/
theorem InPhase.raise {table : ScopeTable} (h : InPhase table phase b) (ha : phase.Admits event)
    (hr : b.raise event = .ok b') :
    b.scopes.follow event = .ok b'.scopes ∧ InPhase table (phase.after event) b' := by
  cases hc : event.scopeCall? with
  | some c =>
    simp only [Builder.raise, hc] at hr
    obtain ⟨hs, ht, hassign⟩ := call_ok hr
    have hp : phase ≠ .assigning := by
      refine ne_assigning_of_admits ha ?_ fun target he => ?_
      · cases event <;> first | rfl | cases hc
      · rw [he] at hc
        cases hc
    rw [ScopeStack.follow, hc]
    refine ⟨hs, .of_none (ht.trans h.table_eq) (hassign.trans (h.assign_eq_none hp)) ?_⟩
    cases event <;> first | exact Phase.noConfusion | cases hc
  | none =>
    have hother : event.inExpr = false → (∀ target, event ≠ .exitAssign target) →
        phase ≠ .assigning := ne_assigning_of_admits ha
    rw [ScopeStack.follow, hc]
    cases event with
    | enterAssign target =>
      obtain ⟨hs, ht, hopen⟩ := enterAssign_ok hr
      exact ⟨congrArg _ hs.symm, ht.trans h.table_eq, fun _ => rfl, fun _ => hopen⟩
    | exitAssign target =>
      obtain ⟨hs, ht, hnone⟩ := exitAssign_ok hr
      exact ⟨congrArg _ hs.symm, .of_none (ht.trans h.table_eq) hnone Phase.noConfusion⟩
    | read idents => exact h.execute (hother rfl fun _ => Event.noConfusion) (pushResolved_ok hr)
    | write idents => exact h.execute (hother rfl fun _ => Event.noConfusion) (pushResolved_ok hr)
    | exitElse =>
      cases hr
      exact h.execute (hother rfl fun _ => Event.noConfusion) ⟨rfl, rfl, rfl⟩
    | addOp op => exact h.stay (modifyAssign_ok hr)
    | mulOp op => exact h.stay (modifyAssign_ok hr)
    | enterGroup inner => exact h.stay (modifyAssign_ok (show b.modifyAssign (.ok ·.openGroup) = _ from hr))
    | exitGroup inner => exact h.stay (modifyAssign_ok hr)
    | enterAtom text => exact h.stay (enterAtom_ok hr)
    | exitAtom text => cases hr; exact h.stay ⟨rfl, rfl, rfl⟩
    | varDecl ty idents => cases hr; exact h.stay ⟨rfl, rfl, rfl⟩
    | paramDecls params => cases hr; exact h.stay ⟨rfl, rfl, rfl⟩
    | stringDecl ident literal => cases hr; exact h.stay ⟨rfl, rfl, rfl⟩
    | _ => cases hc

end Statement.Builder

/-! ## Uses of names -/

/-- The names that an event looks up in a phase: the target of an assignment, a name in its value, or
the names of a read or a write. -/
def Event.uses (phase : Phase) : Event → List String
  | .enterAssign target => [target]
  | .read idents => idents
  | .write idents => idents
  | .enterAtom text => if phase = .assigning ∧ Text.isNumeral text = false then [text] else []
  | _ => []

theorem Phase.after_of_uses {phase : Phase} {event : Event} {ident : String}
    (h : ident ∈ event.uses phase) : phase.after event ≠ .declaring := by
  cases event with
  | enterAssign target => exact Phase.noConfusion
  | read idents => exact Phase.noConfusion
  | write idents => exact Phase.noConfusion
  | enterAtom text =>
    rw [Event.uses] at h
    split at h
    case isTrue hp =>
      show phase ≠ .declaring
      rw [hp.1]
      exact Phase.noConfusion
    case isFalse => cases h
  | _ => cases h

theorem ScopeTable.Builder.raise_of_uses {phase : Phase} {event : Event} {ident : String}
    (h : ident ∈ event.uses phase) (b : ScopeTable.Builder) : b.raise event = .ok b := by
  cases event with
  | enterAssign target => rfl
  | read idents => rfl
  | write idents => rfl
  | enterAtom text => rfl
  | _ => cases h

namespace ParseTree

/-- At the same point of their walks both builders have the same scopes open. -/
theorem Program.scopes_eq {program : Program} {before after : List Event}
    (hevents : program.events = before ++ after) {table : ScopeTable} {b : ScopeTable.Builder}
    {sb : Statement.Builder} (hb : Step.run ScopeTable.Builder.raise before .empty = .ok b)
    (hsb : Step.run Statement.Builder.raise before (.new table) = .ok sb) :
    sb.scopes = b.scopes ∧ sb.InPhase table (Phase.executing.afterAll before) := by
  have key := Step.run_induction (motive := fun a sb =>
    sb.InPhase table (Phase.executing.afterAll a) ∧
      ∀ b, Step.run ScopeTable.Builder.raise a .empty = .ok b → sb.scopes = b.scopes) hsb ?_ ?_
  · exact ⟨key.2 b hb, key.1⟩
  · refine ⟨⟨rfl, fun h => ?_, fun h => ?_⟩, fun b hb => ?_⟩
    · cases h
    · cases h
    · cases hb
      rfl
  · rintro a event rest s s' rfl - hstep - ⟨hphase, hscopes⟩
    have hsplit : program.events = a ++ event :: (rest ++ after) := by
      rw [hevents, List.append_assoc]
      rfl
    obtain ⟨hfollow, hphase⟩ := hphase.raise (Program.admits_event hsplit) hstep
    refine ⟨by rwa [Phase.afterAll_append], fun b' hb' => ?_⟩
    obtain ⟨b, hb, hraise⟩ := Step.run_concat_eq_ok_iff.mp hb'
    rw [hscopes b hb, ScopeTable.Builder.raise_follow hraise] at hfollow
    exact (Except.ok.inj hfollow).symm

/-- **A use finds what is declared before it.** At every use of a name, looking it up in the finished
table gives what it gives in the table as it is at that point, when no scope is opened twice. The
scopes are those that both walks have open there, so the second walk could do with that table. A
symbol that is found was declared before the use, in one of the visible scopes. -/
theorem Program.lookup?_at_use {program : Program} {table : ScopeTable}
    (htable : program.scopeTable = .ok table) (honce : ∀ id, .openedAgain id ∉ program.tableLog)
    {before after : List Event} {event : Event}
    (hevents : program.events = before ++ event :: after) {ident : String}
    (huse : ident ∈ event.uses (Phase.executing.afterAll before)) :
    ∃ b : ScopeTable.Builder,
      Step.run ScopeTable.Builder.raise before .empty = .ok b ∧
      table.lookup? b.scopes.visible ident = b.table.lookup? b.scopes.visible ident ∧
      (∀ sb, Step.run Statement.Builder.raise before (.new table) = .ok sb →
        sb.table = table ∧ sb.scopes = b.scopes ∧
          sb.resolve ident = { sb with table := b.table }.resolve ident ∧
          (sb.assign.isSome = true ↔ Phase.executing.afterAll before = .assigning)) ∧
      ∀ symbol, table.lookup? b.scopes.visible ident = some symbol →
        ∃ id ∈ b.scopes.visible, ScopeTable.Builder.DeclaredBy before id symbol := by
  obtain ⟨final, hrun, rfl⟩ := Program.run_of_scopeTable htable
  rw [hevents, Step.run_append_eq_ok_iff] at hrun
  obtain ⟨b, hb, hrest⟩ := hrun
  rw [Step.run, ScopeTable.Builder.raise_of_uses huse, Step.ok_andThen] at hrest
  have hsplit : program.events = (before ++ [event]) ++ after := by
    rw [hevents, List.append_assoc]
    rfl
  -- After a use no declaration of an open scope is to come, so these scopes are finished.
  have hphase : Phase.executing.afterAll (before ++ [event]) ≠ .declaring := by
    rw [Phase.afterAll_append]
    exact Phase.after_of_uses huse
  have hfinished := Program.symbols?_kept hsplit
    (Step.run_concat_eq_ok_iff.mpr ⟨b, hb, ScopeTable.Builder.raise_of_uses huse b⟩) hrest honce
    hphase
  have hsame : ∀ id ∈ b.scopes.visible, final.table.symbols? id = b.table.symbols? id := by
    intro id hid
    have hin := ScopeTable.Builder.registered_run hb id (ScopeStack.visibleIn_subset _ _ hid)
    obtain ⟨symbols, hs⟩ := Option.isSome_iff_exists.mp hin
    rw [hs, hfinished.kept id symbols hs]
  have hlookup := ScopeTable.lookup?_congr hsame ident
  refine ⟨b, hb, hlookup, fun sb hsb => ?_, fun symbol hfound => ?_⟩
  · obtain ⟨hscopes, hphase⟩ := Program.scopes_eq hevents hb hsb
    refine ⟨hphase.table_eq, hscopes, ?_, hphase.assign⟩
    simp only [Statement.Builder.resolve, hphase.table_eq, hscopes, hlookup]
  · rw [hlookup] at hfound
    obtain ⟨id, hid, hmem, -⟩ := ScopeTable.mem_of_lookup? hfound
    exact ⟨id, hid, ScopeTable.Builder.declaredBy_run hb hmem⟩

/-- A name is declared in the program, in the first branch of an `if`, and in a procedure further
down. The else part finds the one of the program. -/
theorem Program.lookup?_in_else_part :
    let one : Expr := ⟨⟨.atom "1", []⟩, []⟩
    let branches : Stmt :=
      .ifThen ⟨one, .less, one⟩ [.var .float ["a"]] [] (some ⟨[], [.write ["a"]]⟩)
    let program : Program :=
      ⟨"p", [.var .int ["a"]], [⟨"main", [], [], [branches]⟩, ⟨"f", [], [.string "a" "x"], []⟩]⟩
    let before : List Event := program.events.take 10
    let table : ScopeTable :=
      ⟨[(.global, [⟨"a", .num .int⟩]), (.procedure "main", []), (.block 1, [⟨"a", .num .float⟩]),
        (.block 2, []), (.procedure "f", [⟨"a", .str "x"⟩])]⟩
    program.scopeTable = .ok table ∧ (∀ id, .openedAgain id ∉ program.tableLog) ∧
    program.events = before ++ .write ["a"] :: program.events.drop 11 ∧
    "a" ∈ (Event.write ["a"]).uses (Phase.executing.afterAll before) ∧
    table.lookup? [.block 2, .procedure "main", .global] "a" = some ⟨"a", .num .int⟩ ∧
    ∃ b : ScopeTable.Builder,
      Step.run ScopeTable.Builder.raise before .empty = .ok b ∧
      table.lookup? b.scopes.visible "a" = b.table.lookup? b.scopes.visible "a" := by
  intro one branches program before table
  have htable : program.scopeTable = .ok table := rfl
  have honce : ∀ id, .openedAgain id ∉ program.tableLog := by
    intro id h
    have hlog : program.tableLog.all (·.level ≠ .warn) = true := by decide +kernel
    exact absurd rfl (of_decide_eq_true (List.all_eq_true.mp hlog _ h))
  have huse : "a" ∈ (Event.write ["a"]).uses (Phase.executing.afterAll before) :=
    List.mem_singleton_self _
  have hevents : program.events = before ++ .write ["a"] :: program.events.drop 11 := rfl
  obtain ⟨b, hb, hlookup, -⟩ := Program.lookup?_at_use htable honce hevents huse
  exact ⟨htable, honce, hevents, huse, rfl, b, hb, hlookup⟩

end ParseTree

end TinyGen
