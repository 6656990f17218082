import TinyGen.Proofs.Events
import TinyGen.ScopeTable.Builder
import TinyGen.Statement.Builder

/-!
# Delivery of events

A stage is given the events of a program one after another, up to the first that it stops at.

* `Step.result_run`: what a run gives is the fold of the steps in `Except`.
* `Step.traced` keeps beside the state of a stage every event that the stage is given. By
  `Step.run_traced_of_ok` and `Step.StopsAt.run_traced` these are all events, or those up to the one
  that the stage stops at.
* `Program.walk_eq_foldlM`: the two for walks over a program, where the events are the same ones for
  every stage.
-/

namespace TinyGen

namespace Step

variable {ε σ : Type} {visit : σ → Event → Step ε σ} {s s' sₖ : σ} {fault : ε}
  {events before after : List Event} {event : Event}

/-! ## A run as a fold -/

theorem result_andThen_eq_bind (step : Step ε σ) (next : σ → Step ε σ) :
    (step.andThen next).result = step.result >>= fun s => (next s).result := by
  obtain ⟨s, _ | fault⟩ := step <;> rfl

/-- What a run gives, when each event gives a new state or a fault. -/
theorem result_run (visit : σ → Event → Step ε σ) (events : List Event) (s : σ) :
    (run visit events s).result = events.foldlM (fun s event => (visit s event).result) s := by
  induction events generalizing s with
  | nil => rfl
  | cons event rest ih =>
    rw [run, result_andThen_eq_bind, List.foldlM_cons]
    exact congrArg _ (funext ih)

theorem run_eq_ok_iff_foldlM :
    run visit events s = .ok s' ↔
      events.foldlM (fun s event => (visit s event).result) s = .ok s' := by
  rw [← result_run, result_eq_ok_iff]

/-! ## Where a run stops -/

theorem run_of_stop (hbefore : run visit before s = .ok sₖ) (hevent : visit sₖ event = .stop s' fault)
    (after : List Event) : run visit (before ++ event :: after) s = .stop s' fault := by
  rw [run_append, hbefore, ok_andThen, run, hevent, stop_andThen]

/-- A run that stops does so at one of its events, and has taken those before it. -/
theorem exists_of_run_eq_stop (h : run visit events s = .stop s' fault) :
    ∃ before event after sₖ, events = before ++ event :: after ∧
      run visit before s = .ok sₖ ∧ visit sₖ event = .stop s' fault := by
  induction events generalizing s with
  | nil => cases h
  | cons first rest ih =>
    rw [run] at h
    cases hfirst : visit s first with
    | mk s₁ stopped =>
      rw [hfirst] at h
      cases stopped with
      | some fault' => exact ⟨[], first, rest, s, rfl, rfl, hfirst.trans h⟩
      | none =>
        obtain ⟨before, event, after, sₖ, rfl, hbefore, hevent⟩ := ih h
        refine ⟨first :: before, event, after, sₖ, rfl, ?_, hevent⟩
        rw [run, hfirst]
        exact hbefore

/-- The stage takes the first `k` events, and stops with a fault at the next one. -/
def StopsAt (visit : σ → Event → Step ε σ) (events : List Event) (s : σ) (k : Nat) (s' : σ)
    (fault : ε) : Prop :=
  ∃ event sₖ, events[k]? = some event ∧
    (events.take k).foldlM (fun s event => (visit s event).result) s = .ok sₖ ∧
    visit sₖ event = .stop s' fault

private theorem eq_take_append_of_getElem? {k : Nat} (h : events[k]? = some event) :
    events = events.take k ++ event :: events.drop (k + 1) := by
  obtain ⟨hk, rfl⟩ := List.getElem?_eq_some_iff.mp h
  rw [← List.drop_eq_getElem_cons hk, List.take_append_drop]

theorem run_eq_stop_iff :
    run visit events s = .stop s' fault ↔ ∃ k, StopsAt visit events s k s' fault := by
  constructor
  · intro h
    obtain ⟨before, event, after, sₖ, rfl, hbefore, hevent⟩ := exists_of_run_eq_stop h
    refine ⟨before.length, event, sₖ, ?_, ?_, hevent⟩
    · rw [List.getElem?_append_right (Nat.le_refl _), Nat.sub_self]
      rfl
    · rw [List.take_left]
      exact run_eq_ok_iff_foldlM.mp hbefore
  · rintro ⟨k, event, sₖ, hk, hbefore, hevent⟩
    rw [eq_take_append_of_getElem? hk]
    exact run_of_stop (run_eq_ok_iff_foldlM.mpr hbefore) hevent _

/-! ## The events that a stage is given -/

/-- A stage with the events that it has been given, the one that it stops at included. -/
def traced (visit : σ → Event → Step ε σ) (state : σ × List Event) (event : Event) :
    Step ε (σ × List Event) :=
  let step := visit state.1 event
  ⟨(step.state, state.2 ++ [event]), step.fault⟩

theorem traced_of_ok (h : visit s event = .ok s') (seen : List Event) :
    traced visit (s, seen) event = .ok (s', seen ++ [event]) := by
  simp only [traced, h]
  rfl

theorem traced_of_stop (h : visit s event = .stop s' fault) (seen : List Event) :
    traced visit (s, seen) event = .stop (s', seen ++ [event]) fault := by
  simp only [traced, h]
  rfl

/-- A stage that takes all events is given all of them, in their order. -/
theorem run_traced_of_ok (h : run visit events s = .ok s') (seen : List Event) :
    run (traced visit) events (s, seen) = .ok (s', seen ++ events) := by
  induction events generalizing s seen with
  | nil =>
    cases h
    rw [List.append_nil]
    rfl
  | cons event rest ih =>
    obtain ⟨s₁, hevent, hrest⟩ := andThen_eq_ok_iff.mp h
    rw [run, traced_of_ok hevent, ok_andThen, ih hrest, List.append_assoc, List.singleton_append]

/-- A stage that stops is given the events up to the one that it stops at, and none after it. -/
theorem StopsAt.run_traced {k : Nat} (h : StopsAt visit events s k s' fault) :
    run (traced visit) events (s, []) = .stop (s', events.take (k + 1)) fault := by
  obtain ⟨event, sₖ, hk, hbefore, hevent⟩ := h
  have htake : events.take (k + 1) = events.take k ++ [event] := by
    rw [List.take_add_one, hk]
    rfl
  have hrun := run_traced_of_ok (run_eq_ok_iff_foldlM.mpr hbefore) []
  rw [htake]
  conv => lhs; rw [eq_take_append_of_getElem? hk]
  exact run_of_stop hrun (traced_of_stop hevent _) _

/-- What a stage is given is the start of what there is. -/
theorem run_traced_isPrefix (visit : σ → Event → Step ε σ) (events : List Event) (s : σ) :
    (run (traced visit) events (s, [])).state.2 <+: events := by
  rcases hrun : run visit events s with ⟨s', _ | fault⟩
  · rw [run_traced_of_ok hrun]
    exact List.prefix_rfl
  · obtain ⟨k, hstop⟩ := run_eq_stop_iff.mp hrun
    rw [hstop.run_traced]
    exact List.take_prefix (k + 1) events

/-! ## Kept events -/

theorem run_keep_none (fault : ε) (events : List Event) (kept : Array Event) :
    run (Event.keep none fault) events kept = .ok (kept ++ events.toArray) := by
  induction events generalizing kept with
  | nil => simp [run]
  | cons event rest ih =>
    have hkeep : Event.keep none fault kept event = .ok (kept.push event) := if_neg nofun
    rw [run, hkeep, ok_andThen, ih]
    simp

/-- A limit that is not exceeded yet leaves room for `n - kept.size` events. -/
theorem run_keep_some {n : Nat} {kept : Array Event} (hn : kept.size ≤ n) (fault : ε)
    (events : List Event) :
    run (Event.keep (some n) fault) events kept =
      if n < kept.size + events.length then
        .stop (kept ++ (events.take (n - kept.size)).toArray) fault
      else .ok (kept ++ events.toArray) := by
  induction events generalizing kept with
  | nil =>
    rw [if_neg (by simpa using hn)]
    simp [run]
  | cons event rest ih =>
    by_cases hfull : n = kept.size
    · have hstop : Event.keep (some n) fault kept event = .stop kept fault := if_pos (by rw [hfull])
      rw [run, hstop, stop_andThen, if_pos (by simp only [List.length_cons]; omega), hfull]
      simp
    · have hkeep : Event.keep (some n) fault kept event = .ok (kept.push event) :=
        if_neg (by simpa using hfull)
      obtain ⟨m, hm⟩ : ∃ m, n - kept.size = m + 1 := ⟨n - kept.size - 1, by omega⟩
      have hm' : n - (kept.push event).size = m := by
        rw [Array.size_push]
        omega
      rw [run, hkeep, ok_andThen, ih (by rw [Array.size_push]; omega), hm, hm', Array.size_push]
      simp [Nat.add_assoc, Nat.add_comm 1]

end Step

namespace ParseTree

open Step

/-- **One list of events for all stages.** A stage that keeps what it is given and never stops keeps
`program.events`. For every stage the walk over the program is the fold of its steps over this list. If
the stage takes every event, it has been given the whole list in this order; if the event at place `k`
is the first that it stops at, it has been given the first `k + 1` events and the walk ends with the
fault of that event; and it stops in no other way. So the two stages that build the scope table and
the statement trees, and a stage that stops after keeping `n` events, are given starts of the same
list. -/
theorem Program.walk_eq_foldlM (program : Program) :
    (∀ (ε : Type) (fault : ε),
      program.walk (Event.keep none fault) #[] = .ok program.events.toArray) ∧
    (∀ (ε σ : Type) (visit : σ → Event → Step ε σ) (s : σ),
      (program.walk visit s).result =
        program.events.foldlM (fun s event => (visit s event).result) s ∧
      (∀ s', program.walk visit s = .ok s' →
        program.walk (traced visit) (s, []) = .ok (s', program.events)) ∧
      (∀ s' fault, program.walk visit s = .stop s' fault ↔
        ∃ k, StopsAt visit program.events s k s' fault) ∧
      (∀ k s' fault, StopsAt visit program.events s k s' fault →
        program.walk (traced visit) (s, []) = .stop (s', program.events.take (k + 1)) fault)) ∧
    (program.walk (traced ScopeTable.Builder.raise) (.empty, [])).state.2 <+: program.events ∧
    (∀ table, (program.walk (traced Statement.Builder.raise) (.new table, [])).state.2 <+:
      program.events) ∧
    (∀ (ε : Type) (fault : ε) (n : Nat), program.walk (Event.keep (some n) fault) #[] =
      if n < program.events.length then .stop (program.events.take n).toArray fault
      else .ok program.events.toArray) := by
  simp only [Program.walk_eq_run]
  refine ⟨fun ε fault => ?_, fun ε σ visit s => ⟨result_run visit program.events s, ?_, ?_, ?_⟩,
    run_traced_isPrefix _ _ _, fun table => run_traced_isPrefix _ _ _, fun ε fault n => ?_⟩
  · simpa using run_keep_none fault program.events #[]
  · intro s' hok
    simpa using run_traced_of_ok hok []
  · intro s' fault
    exact run_eq_stop_iff
  · intro k s' fault hstop
    exact hstop.run_traced
  · have hempty : (#[] : Array Event).size ≤ n := Nat.zero_le n
    simpa using run_keep_some hempty fault program.events

/-- The trees of a program that writes an unknown name inside a loop, after a condition with a group: the
stage is given the events up to this `write`, and neither what follows it nor the end of the loop. -/
theorem Program.walk_stops_in_loop :
    let one : Expr := ⟨⟨.atom "1", []⟩, []⟩
    let program : Program :=
      ⟨"p", [], [⟨"main", [], [],
        [.while ⟨⟨⟨.group one, []⟩, []⟩, .less, one⟩ [] [.write ["b"], .read ["a"]]]⟩]⟩
    let table : ScopeTable := ⟨[(.global, []), (.procedure "main", []), (.block 1, [])]⟩
    ∃ b, StopsAt Statement.Builder.raise program.events (.new table) 9 b
        (.error (.undeclaredVariable "b")) ∧
      program.walk (traced Statement.Builder.raise) (.new table, []) =
        .stop (b, [.enterProgram "p", .enterProcedure "main", .enterWhile, .enterGroup one,
          .enterAtom "1", .exitAtom "1", .exitGroup one, .enterAtom "1", .exitAtom "1", .write ["b"]])
          (.error (.undeclaredVariable "b")) := by
  intro one program table
  have hstop : StopsAt Statement.Builder.raise program.events (.new table) 9 _
      (.error (.undeclaredVariable "b")) := ⟨.write ["b"], _, rfl, rfl, rfl⟩
  exact ⟨_, hstop, (program.walk_eq_foldlM.2.1 _ _ _ _).2.2.2 9 _ _ hstop⟩

end ParseTree

end TinyGen
