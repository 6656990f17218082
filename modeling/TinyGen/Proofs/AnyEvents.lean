import TinyGen.Proofs.Declarations
import TinyGen.Proofs.TableRun

/-!
# Scope tables under any events

A builder of scope tables can be given events in an order that no walk has. Events that it refuses
can be followed by others, and its table can be taken at any point (`Reachable`). What it holds is
in order all the same: `Sound` is kept by every event, also by one that is refused after some of its
symbols have been declared (`Sound.raise`).

Main statement: `Builder.reachable_invariant`. It also says that a block is new when it is opened, so
that only the program and the procedures can lose symbols.
-/

namespace TinyGen

/-- A symbol has a text exactly if it is a string. -/
theorem Symbol.isSome_literal?_iff (s : Symbol) : s.literal?.isSome = true ↔ s.ty = .string := by
  obtain ⟨ident, ⟨_ | _⟩ | literal⟩ := s <;> simp [literal?, ty, NumTy.toTy]

namespace ScopeTable.Builder

variable {b b' : Builder} {event : Event}

/-- A builder that is reached from the empty one by events in any order. A refused event may be
followed by others, and the table may be taken at any point. Nothing follows a misuse. -/
inductive Reachable : Builder → Prop
  | empty : Reachable .empty
  | raise {b : Builder} (h : Reachable b) (event : Event)
      (hproper : ∀ m, (b.raise event).fault ≠ some (.misuse m)) : Reachable (b.raise event).state
  | finish {b : Builder} (h : Reachable b) : Reachable b.finish.2

/-- What a builder holds is in order. -/
structure Sound (b : Builder) : Prop where
  /-- No scope stands twice in the table. -/
  nodup_ids : b.table.ids.Nodup
  /-- No scope has two symbols of one name and one type. -/
  distinct : ∀ id symbols, b.table.symbols? id = some symbols → Distinct symbols
  /-- Every open scope is in the table. -/
  registered : b.Registered
  /-- The blocks in the table have numbers that have been given. -/
  numbered : ∀ n, b.table.contains (.block n) = true → 1 ≤ n ∧ n < b.scopes.nextBlock
  /-- Numbers are given from 1 on. -/
  nextBlock_pos : 1 ≤ b.scopes.nextBlock

theorem sound_empty : Sound .empty where
  nodup_ids := List.nodup_nil
  distinct _ _ h := by cases h
  registered _ h := by cases h
  numbered _ h := by cases h
  nextBlock_pos := Nat.le_refl 1

/-! ## What an event keeps -/

/-- A scope can be given other symbols, if it is in the table or becomes a scope with a number that
has been given. -/
theorem Sound.insert (h : b.Sound) {s : ScopeStack} {id : ScopeId} {symbols : List Symbol}
    (hdistinct : Distinct symbols) (hactive : s.active ⊆ id :: b.scopes.active)
    (hnext : b.scopes.nextBlock ≤ s.nextBlock)
    (hid : ∀ n, id = .block n → b.table.contains id = true ∨ 1 ≤ n ∧ n < s.nextBlock) :
    Sound ⟨b.table.insert id symbols, s⟩ where
  nodup_ids := nodup_ids_insert h.nodup_ids id symbols
  distinct id' symbols' hs := by
    rw [symbols?_insert] at hs
    split at hs
    · cases hs
      exact hdistinct
    · exact h.distinct id' symbols' hs
  registered id' hid' := by
    rw [contains_insert]
    rcases List.mem_cons.mp (hactive hid') with rfl | hopen
    · simp
    · simp [h.registered id' hopen]
  numbered n hn := by
    have hold : b.table.contains (.block n) = true → 1 ≤ n ∧ n < s.nextBlock := fun hc =>
      ⟨(h.numbered n hc).1, Nat.lt_of_lt_of_le (h.numbered n hc).2 hnext⟩
    rw [contains_insert, Bool.or_eq_true, decide_eq_true_iff] at hn
    rcases hn with rfl | hn
    · exact (hid n rfl).elim hold id
    · exact hold hn
  nextBlock_pos := Nat.le_trans h.nextBlock_pos hnext

theorem Sound.declare (h : b.Sound) (symbol : Symbol) : (b.declare symbol).state.Sound := by
  rcases declare_cases b symbol with hstep | ⟨id, hid, ⟨-, hstep⟩ | ⟨hclash, hstep⟩⟩ <;> rw [hstep]
  · exact h
  · exact h
  · have hin : b.table.contains id = true := h.registered id (List.mem_of_mem_head? hid)
    obtain ⟨symbols, hsymbols⟩ := Option.isSome_iff_exists.mp hin
    have hdistinct : Distinct (b.declaredIn id) := by
      rw [declaredIn, hsymbols]
      exact h.distinct id symbols hsymbols
    exact h.insert (distinct_append_singleton.mpr ⟨hdistinct, hclash⟩)
      (List.subset_cons_self _ _) (Nat.le_refl _) fun _ _ => .inl hin

/-- Where the declaration of a list stops does not matter: each step leaves a builder in order. -/
theorem Sound.declareAll (h : b.Sound) (symbols : List Symbol) :
    (b.declareAll symbols).state.Sound := by
  induction symbols generalizing b with
  | nil => exact h
  | cons symbol rest ih =>
    have hfirst := h.declare symbol
    rw [Builder.declareAll]
    cases hstep : b.declare symbol with
    | mk b' fault =>
      rw [hstep] at hfirst
      cases fault with
      | none => exact ih hfirst
      | some fault => exact hfirst

/-- Everything that a call can lead to: a misuse, a scope that is opened without symbols, or scopes
that are closed. -/
theorem call_cases (b : Builder) (c : ScopeStack.Call) :
    (∃ m, b.call c = .stop b (.misuse m)) ∨
    (∃ s id, s.active = id :: b.scopes.active ∧
      (id = .block b.scopes.nextBlock ∧ s.nextBlock = b.scopes.nextBlock + 1 ∨
        (id = .global ∨ ∃ ident, id = .procedure ident) ∧ s.nextBlock = b.scopes.nextBlock) ∧
      b.call c = .ok ⟨b.table.insert id [], s⟩) ∨
    ∃ s, s.active <:+ b.scopes.active ∧ s.nextBlock = b.scopes.nextBlock ∧
      b.call c = .ok ⟨b.table, s⟩ := by
  cases hs : b.scopes.apply c with
  | error m => exact .inl ⟨m, by simp only [Builder.call, hs]⟩
  | ok s =>
    cases hc : c.opens with
    | true =>
      obtain ⟨id, hactive, hkind⟩ := ScopeStack.opened_cases hs hc
      have hcurrent : s.current = some id := by
        rw [ScopeStack.current, hactive]
        rfl
      refine .inr (.inl ⟨s, id, hactive, hkind, ?_⟩)
      simp only [Builder.call, hs, hc, openCurrent, hcurrent, ↓reduceIte]
    | false =>
      obtain ⟨hactive, hnext⟩ := ScopeStack.closed_cases hs hc
      refine .inr (.inr ⟨s, hactive, hnext, ?_⟩)
      simp [Builder.call, hs, hc]

theorem Sound.call (h : b.Sound) (c : ScopeStack.Call) : (b.call c).state.Sound := by
  rcases b.call_cases c with ⟨m, hstep⟩ | ⟨s, id, hactive, hkind, hstep⟩ | ⟨s, hactive, hnext, hstep⟩
    <;> rw [hstep]
  · exact h
  · have hpos := h.nextBlock_pos
    refine h.insert distinct_nil (hactive ▸ List.Subset.refl _) ?_ ?_
    · rcases hkind with ⟨-, hnext⟩ | ⟨-, hnext⟩ <;> omega
    · rintro n rfl
      rcases hkind with ⟨hn, hnext⟩ | ⟨hn, -⟩
      · cases hn
        exact .inr ⟨hpos, by omega⟩
      · simp at hn
  · exact ⟨h.nodup_ids, h.distinct, fun id hid => h.registered id (hactive.subset hid),
      fun n hn => hnext ▸ h.numbered n hn, hnext ▸ h.nextBlock_pos⟩

theorem Sound.raise (h : b.Sound) (event : Event) : (b.raise event).state.Sound := by
  unfold Builder.raise
  split
  · exact h.call _
  · exact h.declareAll _

theorem Reachable.sound (h : Reachable b) : b.Sound := by
  induction h with
  | empty => exact sound_empty
  | raise _ event _ ih => exact ih.raise event
  | finish => exact sound_empty

/-! ## Scopes that are opened -/

/-- A scope that an event opens starts without symbols. It is the next block, the program or a
procedure. -/
theorem opened_of_raise {id : ScopeId} (h : b.raise event = .ok b')
    (ho : b'.scopes.active = id :: b.scopes.active) :
    b'.table = b.table.insert id [] ∧
      (id = .block b.scopes.nextBlock ∨ id = .global ∨ ∃ ident, id = .procedure ident) := by
  have hlonger : ¬ id :: b.scopes.active <:+ b.scopes.active :=
    fun hs => absurd hs.length_le (Nat.not_succ_le_self _)
  cases hc : event.scopeCall? with
  | none =>
    have hfollow := raise_follow h
    rw [ScopeStack.follow, hc] at hfollow
    rw [← Except.ok.inj hfollow] at ho
    exact absurd (ho ▸ List.suffix_refl _) hlonger
  | some c =>
    rw [raise_of_call hc] at h
    rcases b.call_cases c with ⟨m, hstep⟩ | ⟨s, id', hactive, hkind, hstep⟩ | ⟨s, hactive, -, hstep⟩
      <;> rw [hstep] at h
    · exact absurd h Step.stop_ne_ok
    · cases h
      obtain rfl : id = id' := (List.cons.inj (ho.symm.trans hactive)).1
      exact ⟨rfl, hkind.imp And.left And.left⟩
    · cases h
      exact absurd (ho ▸ hactive) hlonger

/-- **A scope table stays in order under any events.** No scope stands twice in it or has two
symbols of one name and one type, a symbol has a text exactly if it is a string, every open scope is
there, and its blocks have numbers from 1 to the last one given. A scope that is opened twice is the
program or a procedure. A block that is opened is new and is put behind all other scopes, which keep
their symbols. -/
theorem reachable_invariant (h : Reachable b) :
    b.Sound ∧
    (∀ id symbols, b.table.symbols? id = some symbols →
      ∀ s ∈ symbols, (s.literal?.isSome = true ↔ s.ty = .string)) ∧
    ∀ event b' id, b.raise event = .ok b' → b'.scopes.active = id :: b.scopes.active →
      (b.table.contains id = true → id = .global ∨ ∃ ident, id = .procedure ident) ∧
      ∀ n, id = .block n →
        n = b.scopes.nextBlock ∧ b'.table.scopes = b.table.scopes ++ [(.block n, [])] := by
  refine ⟨h.sound, fun _ _ _ s _ => s.isSome_literal?_iff, fun event b' id hr ho => ?_⟩
  have hnew : ¬ b.table.contains (.block b.scopes.nextBlock) = true := fun hc =>
    Nat.lt_irrefl _ (h.sound.numbered _ hc).2
  obtain ⟨htable, rfl | hid⟩ := opened_of_raise hr ho
  · refine ⟨fun hc => absurd hc hnew, ?_⟩
    rintro n ⟨⟩
    rw [htable, insert_of_not_mem fun hm => hnew (mem_ids_iff.mp hm)]
    exact ⟨rfl, rfl⟩
  · refine ⟨fun _ => hid, ?_⟩
    rintro n rfl
    simp at hid

/-- A table is taken. Then parameters stand outside a procedure and are refused at the second, a
`while` ends in place of the `if` inside it, and the else part of that `if` follows. The procedure
can be opened again, and a block comes behind it. -/
theorem reachable_invariant_disorder :
    let b : Builder :=
      ⟨⟨[(.block 1, [⟨"a", .num .int⟩, ⟨"a", .str "x"⟩]), (.block 2, []), (.block 3, []),
          (.procedure "f", [])]⟩,
        ⟨[.procedure "f", .block 3, .block 1], 4, [⟨1, true⟩]⟩⟩
    Reachable b ∧ b.Sound ∧ b.table.contains (.procedure "f") = true ∧
    (∃ b', b.raise (.enterProcedure "f") = .ok b' ∧ b'.table = b.table) ∧
    ∃ b', b.raise .enterWhile = .ok b' ∧
      b'.table.scopes = b.table.scopes ++ [(.block 4, [])] := by
  intro b
  have htaken : Reachable .empty :=
    ((Reachable.empty.raise (.enterProgram "p") nofun).raise .exitProgram nofun).finish
  have hrefused : Reachable ⟨⟨[(.block 1, [⟨"a", .num .int⟩])]⟩, ⟨[.block 1], 2, []⟩⟩ :=
    (htaken.raise .enterWhile nofun).raise
      (.paramDecls [⟨.int, "a"⟩, ⟨.int, "a"⟩, ⟨.float, "b"⟩]) nofun
  have hbranch := (hrefused.raise (.stringDecl "a" "x") nofun).raise (.enterIf true) nofun
  have hb : Reachable b :=
    ((hbranch.raise .exitWhile nofun).raise .enterElse nofun).raise (.enterProcedure "f") nofun
  obtain ⟨hsound, -, hopened⟩ := reachable_invariant hb
  exact ⟨hb, hsound, rfl, ⟨_, rfl, rfl⟩, _, rfl, ((hopened .enterWhile _ _ rfl rfl).2 4 rfl).2⟩

end ScopeTable.Builder

end TinyGen
