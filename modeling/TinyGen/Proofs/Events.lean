import TinyGen.ParseTree.Events
import TinyGen.Proofs.Walk
import TinyGen.ScopeTable.Builder

/-!
# The events of a walk, in order

`Program.walk_eq_run`: walking over a program is delivering `Program.events`, one after another.
`Step.run_induction` is how a property of such a run is proved.

`Program.admitted_events` says in which order the events of a program come. A body starts with its
declarations, and its statements follow; an assignment has nothing in it but its expression. The
`Phase` at a point says which of the three it is in.
-/

namespace TinyGen

namespace Step

variable {ε σ : Type} {visit : σ → Event → Step ε σ}

/-- Going on with nothing changes nothing. -/
theorem andThen_ok (step : Step ε σ) : step.andThen ok = step := by
  obtain ⟨s, _ | fault⟩ := step <;> rfl

theorem run_append_eq (visit : σ → Event → Step ε σ) (a b : List Event) :
    run visit (a ++ b) = fun s => (run visit a s).andThen (run visit b) :=
  funext (run_append visit a b)

end Step

namespace ParseTree

variable {ε σ : Type} (visit : σ → Event → Step ε σ)

mutual

/-- Walking over an expression is delivering its events. -/
theorem Expr.walk_eq_run (expr : Expr) : expr.walk visit = Step.run visit expr.events := by
  obtain ⟨first, rest⟩ := expr
  funext s
  rw [Expr.walk, Expr.events, Step.run_append, Factor.walk_eq_run first, walkTerms_eq_run rest]

theorem walkTerms_eq_run (rest : List (AddOp × Factor)) :
    walkTerms visit rest = Step.run visit (termEvents rest) := by
  funext s
  match rest with
  | [] => rfl
  | (op, factor) :: rest =>
    rw [walkTerms, termEvents, Step.run, Step.andThen_assoc, Step.run_append_eq,
      Factor.walk_eq_run factor, walkTerms_eq_run rest]

theorem Factor.walk_eq_run (factor : Factor) :
    factor.walk visit = Step.run visit factor.events := by
  obtain ⟨first, rest⟩ := factor
  funext s
  rw [Factor.walk, Factor.events, Step.run_append, Primary.walk_eq_run first,
    walkProducts_eq_run rest]

theorem walkProducts_eq_run (rest : List (MulOp × Primary)) :
    walkProducts visit rest = Step.run visit (productEvents rest) := by
  funext s
  match rest with
  | [] => rfl
  | (op, primary) :: rest =>
    rw [walkProducts, productEvents, Step.run, Step.andThen_assoc, Step.run_append_eq,
      Primary.walk_eq_run primary, walkProducts_eq_run rest]

theorem Primary.walk_eq_run (primary : Primary) :
    primary.walk visit = Step.run visit primary.events := by
  funext s
  match primary with
  | .atom text =>
    simp only [Primary.walk, Primary.events, Step.run, Step.andThen_ok]
  | .group inner =>
    simp only [Primary.walk, Primary.events, Step.run, Step.run_append_eq, Step.andThen_ok,
      Step.andThen_assoc, Expr.walk_eq_run inner]

end

theorem Cond.walk_eq_run (cond : Cond) : cond.walk visit = Step.run visit cond.events := by
  funext s
  rw [Cond.walk, Cond.events, Step.run_append, Expr.walk_eq_run, Expr.walk_eq_run]

mutual

/-- Walking over a statement is delivering its events. -/
theorem Stmt.walk_eq_run (stmt : Stmt) : stmt.walk visit = Step.run visit stmt.events := by
  funext s
  match stmt with
  | .assign target expr =>
    simp only [Stmt.walk, Stmt.events, Step.run, Step.run_append_eq, Step.andThen_ok,
      Step.andThen_assoc, Expr.walk_eq_run]
  | .read idents => exact (Step.andThen_ok _).symm
  | .write idents => exact (Step.andThen_ok _).symm
  | .return expr => rw [Stmt.walk, Stmt.events, Expr.walk_eq_run]
  | .ifThen cond decls body elsePart =>
    simp only [Stmt.walk, Stmt.events, Step.run, Step.run_append_eq, Step.andThen_ok,
      Step.andThen_assoc, Cond.walk_eq_run, walkDecls_eq_run, walkStmts_eq_run body,
      walkElse_eq_run elsePart]
  | .while cond decls body =>
    simp only [Stmt.walk, Stmt.events, Step.run, Step.run_append_eq, Step.andThen_ok,
      Step.andThen_assoc, Cond.walk_eq_run, walkDecls_eq_run, walkStmts_eq_run body]

theorem walkStmts_eq_run (stmts : List Stmt) :
    walkStmts visit stmts = Step.run visit (stmtEvents stmts) := by
  funext s
  match stmts with
  | [] => rfl
  | stmt :: rest =>
    rw [walkStmts, stmtEvents, Step.run_append, Stmt.walk_eq_run stmt, walkStmts_eq_run rest]

/-- A missing else part has no events. -/
theorem walkElse_eq_run (elsePart : Option ElsePart) :
    walkElse visit elsePart = Step.run visit (elseEvents elsePart) := by
  funext s
  match elsePart with
  | none => rfl
  | some ⟨decls, body⟩ =>
    simp only [walkElse, elseEvents, Step.run, Step.run_append_eq, Step.andThen_ok,
      Step.andThen_assoc, walkDecls_eq_run, walkStmts_eq_run body]

end

/-- Walking over a procedure is delivering its events. -/
theorem FuncDecl.walk_eq_run (func : FuncDecl) :
    func.walk visit = Step.run visit func.events := by
  funext s
  simp only [FuncDecl.walk, FuncDecl.events, Step.run, Step.run_append_eq, Step.andThen_ok,
    Step.andThen_assoc, walkParams_eq_run, walkDecls_eq_run, walkStmts_eq_run]

theorem walkFuncs_eq_run (funcs : List FuncDecl) :
    walkFuncs visit funcs = Step.run visit (funcs.flatMap FuncDecl.events) := by
  induction funcs with
  | nil => rfl
  | cons func rest ih =>
    funext s
    rw [walkFuncs, List.flatMap_cons, Step.run_append, FuncDecl.walk_eq_run, ih]

/-- **The walk is a run over the events.** -/
theorem Program.walk_eq_run (program : Program) :
    program.walk visit = Step.run visit program.events := by
  funext s
  simp only [Program.walk, Program.events, Step.run, Step.run_append_eq, Step.andThen_ok,
    Step.andThen_assoc, walkDecls_eq_run, walkFuncs_eq_run]

end ParseTree

/-! ## Runs without a fault -/

namespace Step

variable {ε σ : Type} {visit : σ → Event → Step ε σ}

theorem stop_ne_ok {s s' : σ} {fault : ε} : stop s fault ≠ ok s' := by
  intro h
  cases h

/-- A step gives a state if it has no fault. -/
theorem result_eq_ok_iff {step : Step ε σ} {s : σ} : step.result = .ok s ↔ step = .ok s := by
  obtain ⟨s', _ | fault⟩ := step <;> simp [result, ok]

/-- A step that goes on without a fault has had none before. -/
theorem andThen_eq_ok_iff {step : Step ε σ} {next : σ → Step ε σ} {s' : σ} :
    step.andThen next = .ok s' ↔ ∃ s, step = .ok s ∧ next s = .ok s' := by
  obtain ⟨s, _ | fault⟩ := step <;> simp [andThen, ok]

/-- A run without a fault has a state between any two parts of its events. -/
theorem run_append_eq_ok_iff {a b : List Event} {s s'' : σ} :
    run visit (a ++ b) s = .ok s'' ↔ ∃ s', run visit a s = .ok s' ∧ run visit b s' = .ok s'' := by
  rw [run_append, andThen_eq_ok_iff]

/-- The last event of a run without a fault is taken in the state that the others lead to. -/
theorem run_concat_eq_ok_iff {events : List Event} {event : Event} {s s'' : σ} :
    run visit (events ++ [event]) s = .ok s'' ↔
      ∃ s', run visit events s = .ok s' ∧ visit s' event = .ok s'' := by
  simp only [run_append_eq_ok_iff, run, andThen_ok]

/-- What holds at the start of a run without a fault, and is kept by each of its events, holds at its
end. Each event is given with what is before it and what is after it. -/
theorem run_induction {s₀ sₙ : σ} {events : List Event} {motive : List Event → σ → Prop}
    (h : run visit events s₀ = .ok sₙ) (start : motive [] s₀)
    (step : ∀ before event after s s', events = before ++ event :: after →
      run visit before s₀ = .ok s → visit s event = .ok s' → run visit after s' = .ok sₙ →
      motive before s → motive (before ++ [event]) s') : motive events sₙ := by
  -- The events are taken in one by one; `done` are those before the point reached.
  have key : ∀ rest done s, events = done ++ rest → run visit done s₀ = .ok s →
      motive done s → run visit rest s = .ok sₙ → motive events sₙ := by
    intro rest
    induction rest with
    | nil =>
      intro done s he _ hm hr
      rw [List.append_nil] at he
      cases hr
      exact he ▸ hm
    | cons event rest ih =>
      intro done s he hd hm hr
      obtain ⟨s', hv, hr⟩ := andThen_eq_ok_iff.mp hr
      refine ih (done ++ [event]) s' ?_ (run_concat_eq_ok_iff.mpr ⟨s, hd, hv⟩)
        (step done event rest s s' he hd hv hr hm) hr
      rw [he, List.append_assoc, List.singleton_append]
  exact key events [] s₀ rfl rfl start h

end Step

/-! ## Phases -/

/-- What the events of a walk are about at a point: the start of a body, with its declarations, its
statements, or the value of an assignment. -/
inductive Phase where
  | declaring
  | executing
  | assigning
  deriving DecidableEq, Repr

namespace Phase

/-- The phase after an event. Declarations and the events of expressions belong to the phase they
stand in. -/
def after (phase : Phase) : Event → Phase
  | .enterProgram _ => .declaring
  | .enterProcedure _ => .declaring
  | .enterIf _ => .declaring
  | .enterElse => .declaring
  | .enterWhile => .declaring
  | .enterAssign _ => .assigning
  | .exitAssign _ => .executing
  | .read _ => .executing
  | .write _ => .executing
  | .exitProgram => .executing
  | .exitProcedure _ => .executing
  | .exitIf => .executing
  | .exitElse => .executing
  | .exitWhile => .executing
  | _ => phase

/-- The phase after events. -/
def afterAll (phase : Phase) (events : List Event) : Phase :=
  events.foldl after phase

/-- Whether an event can occur in a phase: nothing is declared among statements, and an assignment
has only its expression. -/
def Admits : Phase → Event → Prop
  | .declaring, _ => True
  | .executing, event => event.declared = []
  | .assigning, event => event.inExpr = true ∨ ∃ target, event = .exitAssign target

/-- Every event can occur in the phase that it is met in. -/
def Admitted (phase : Phase) : List Event → Prop
  | [] => True
  | event :: rest => phase.Admits event ∧ (phase.after event).Admitted rest

variable {phase : Phase}

/-- The phase after events is found part by part. -/
theorem afterAll_append (phase : Phase) (a b : List Event) :
    phase.afterAll (a ++ b) = (phase.afterAll a).afterAll b :=
  List.foldl_append

/-- What is admitted can be cut anywhere: the second part is admitted in the phase after the first.
-/
theorem admitted_append {a b : List Event} :
    phase.Admitted (a ++ b) ↔ phase.Admitted a ∧ (phase.afterAll a).Admitted b := by
  induction a generalizing phase with
  | nil => simp [Admitted, afterAll]
  | cons event rest ih =>
    simp only [List.cons_append, Admitted, ih, and_assoc, afterAll, List.foldl_cons]

/-- The event leaves every phase as it is. -/
def Quiet (event : Event) : Prop :=
  ∀ phase : Phase, phase.after event = phase

/-- Events that leave every phase as it is do so one after another. -/
theorem afterAll_of_quiet {events : List Event} (h : ∀ e ∈ events, Quiet e) (phase : Phase) :
    phase.afterAll events = phase := by
  induction events generalizing phase with
  | nil => rfl
  | cons event rest ih =>
    show (phase.after event).afterAll rest = phase
    rw [h event List.mem_cons_self, ih fun e he => h e (List.mem_cons_of_mem _ he)]

theorem admitted_of_quiet {events : List Event} (h : ∀ e ∈ events, Quiet e ∧ phase.Admits e) :
    phase.Admitted events := by
  induction events with
  | nil => trivial
  | cons event rest ih =>
    obtain ⟨hq, ha⟩ := h event List.mem_cons_self
    refine ⟨ha, ?_⟩
    rw [hq phase]
    exact ih fun e he => h e (List.mem_cons_of_mem _ he)

/-- The events can occur between statements, and what follows them is between statements again. -/
def Whole (events : List Event) : Prop :=
  ∀ phase : Phase, phase ≠ .assigning →
    phase.Admitted events ∧ phase.afterAll events ≠ .assigning

theorem whole_nil : Whole [] :=
  fun _ h => ⟨trivial, h⟩

/-- Statements one after another make up a whole. -/
theorem Whole.append {a b : List Event} (ha : Whole a) (hb : Whole b) : Whole (a ++ b) := by
  intro phase h
  obtain ⟨haa, hpa⟩ := ha phase h
  obtain ⟨hab, hpb⟩ := hb _ hpa
  rw [admitted_append, afterAll_append]
  exact ⟨⟨haa, hab⟩, hpb⟩

/-- One event that declares nothing and starts no assignment. -/
theorem whole_singleton {event : Event} (hd : event.declared = [])
    (ha : ∀ phase : Phase, phase ≠ .assigning → phase.after event ≠ .assigning) :
    Whole [event] := by
  intro phase h
  refine ⟨⟨?_, trivial⟩, ha phase h⟩
  cases phase with
  | declaring => trivial
  | executing => exact hd
  | assigning => exact absurd rfl h

/-- A body: it is entered, declares, and has statements. -/
theorem whole_body {opening : Event} {quiet inner : List Event} (hd : opening.declared = [])
    (ho : ∀ phase : Phase, phase.after opening = .declaring) (hq : ∀ e ∈ quiet, Quiet e)
    (hi : Whole inner) : Whole (opening :: (quiet ++ inner)) := by
  have hquiet : Phase.declaring.Admitted quiet :=
    admitted_of_quiet fun e he => ⟨hq e he, trivial⟩
  have hopen : Whole [opening] := whole_singleton hd fun phase _ => by rw [ho]; decide
  intro phase h
  obtain ⟨hia, hip⟩ := hi .declaring (by decide)
  refine ⟨⟨(hopen phase h).1.1, ?_⟩, ?_⟩
  · rw [ho, admitted_append, afterAll_of_quiet hq]
    exact ⟨hquiet, hia⟩
  · show (phase.after opening).afterAll (quiet ++ inner) ≠ _
    rw [ho, afterAll_append, afterAll_of_quiet hq]
    exact hip

/-- The events of an expression leave the phase as it is. -/
theorem quiet_of_inExpr {event : Event} (h : event.inExpr = true) : Quiet event := by
  intro phase
  cases event <;> first | rfl | cases h

/-- An expression declares nothing. -/
theorem declared_of_inExpr {event : Event} (h : event.inExpr = true) : event.declared = [] := by
  cases event <;> first | rfl | cases h

/-- An expression outside an assignment. -/
theorem whole_of_inExpr {events : List Event} (h : ∀ e ∈ events, e.inExpr = true) :
    Whole events := by
  have hq : ∀ e ∈ events, Quiet e := fun e he => quiet_of_inExpr (h e he)
  intro phase hp
  refine ⟨admitted_of_quiet fun e he => ⟨hq e he, ?_⟩, ?_⟩
  · cases phase with
    | declaring => trivial
    | executing => exact declared_of_inExpr (h e he)
    | assigning => exact absurd rfl hp
  · rw [afterAll_of_quiet hq]
    exact hp

/-- An assignment with its expression. -/
theorem whole_assign {events : List Event} (h : ∀ e ∈ events, e.inExpr = true) (target : String) :
    Whole (.enterAssign target :: (events ++ [.exitAssign target])) := by
  have hq : ∀ e ∈ events, Quiet e := fun e he => quiet_of_inExpr (h e he)
  have hin : Phase.assigning.Admitted events :=
    admitted_of_quiet fun e he => ⟨hq e he, .inl (h e he)⟩
  intro phase hp
  have henter : phase.Admits (.enterAssign target) := by
    cases phase with
    | declaring => trivial
    | executing => rfl
    | assigning => exact absurd rfl hp
  refine ⟨⟨henter, ?_⟩, ?_⟩
  · show Phase.assigning.Admitted (events ++ [.exitAssign target])
    rw [admitted_append, afterAll_of_quiet hq]
    exact ⟨hin, .inr ⟨target, rfl⟩, trivial⟩
  · show Phase.assigning.afterAll (events ++ [.exitAssign target]) ≠ _
    rw [afterAll_append]
    exact Phase.noConfusion

end Phase

namespace ParseTree

open Phase

mutual

/-- An expression raises no other events than those of expressions. -/
theorem Expr.inExpr_events (expr : Expr) : ∀ e ∈ expr.events, e.inExpr = true := by
  obtain ⟨first, rest⟩ := expr
  rw [Expr.events, List.forall_mem_append]
  exact ⟨Factor.inExpr_events first, inExpr_termEvents rest⟩

theorem inExpr_termEvents (rest : List (AddOp × Factor)) :
    ∀ e ∈ termEvents rest, e.inExpr = true := by
  match rest with
  | [] => exact fun _ he => absurd he List.not_mem_nil
  | (op, factor) :: rest =>
    rw [termEvents, List.forall_mem_cons, List.forall_mem_append]
    exact ⟨rfl, Factor.inExpr_events factor, inExpr_termEvents rest⟩

theorem Factor.inExpr_events (factor : Factor) : ∀ e ∈ factor.events, e.inExpr = true := by
  obtain ⟨first, rest⟩ := factor
  rw [Factor.events, List.forall_mem_append]
  exact ⟨Primary.inExpr_events first, inExpr_productEvents rest⟩

theorem inExpr_productEvents (rest : List (MulOp × Primary)) :
    ∀ e ∈ productEvents rest, e.inExpr = true := by
  match rest with
  | [] => exact fun _ he => absurd he List.not_mem_nil
  | (op, primary) :: rest =>
    rw [productEvents, List.forall_mem_cons, List.forall_mem_append]
    exact ⟨rfl, Primary.inExpr_events primary, inExpr_productEvents rest⟩

theorem Primary.inExpr_events (primary : Primary) : ∀ e ∈ primary.events, e.inExpr = true := by
  match primary with
  | .atom text => simp [Primary.events, Event.inExpr]
  | .group inner =>
    rw [Primary.events, List.forall_mem_cons, List.forall_mem_append]
    exact ⟨rfl, Expr.inExpr_events inner, by simp [Event.inExpr]⟩

end

theorem Expr.quiet_events (expr : Expr) : ∀ e ∈ expr.events, Quiet e :=
  fun e he => quiet_of_inExpr (expr.inExpr_events e he)

theorem Cond.quiet_events (cond : Cond) : ∀ e ∈ cond.events, Quiet e := by
  rw [Cond.events, List.forall_mem_append]
  exact ⟨cond.lhs.quiet_events, cond.rhs.quiet_events⟩

/-- Declarations do not end the start of a body. -/
theorem quiet_decls (decls : List Decl) : ∀ e ∈ decls.map Decl.event, Quiet e := by
  intro e he
  obtain ⟨decl, -, rfl⟩ := List.mem_map.mp he
  cases decl <;> exact fun _ => rfl

theorem quiet_params (params : List Param) : ∀ e ∈ paramEvents params, Quiet e := by
  intro e he
  cases params with
  | nil => cases he
  | cons param rest =>
    rw [List.mem_singleton.mp he]
    exact fun _ => rfl

mutual

/-- The events of a statement are admitted among statements, and leave off there. -/
theorem Stmt.whole_events (stmt : Stmt) : Whole stmt.events := by
  match stmt with
  | .assign target expr => exact whole_assign expr.inExpr_events target
  | .read idents => exact whole_singleton rfl fun _ _ => Phase.noConfusion
  | .write idents => exact whole_singleton rfl fun _ _ => Phase.noConfusion
  | .return expr => exact whole_of_inExpr expr.inExpr_events
  | .ifThen cond decls body elsePart =>
    have hend : Whole [.exitIf] := whole_singleton rfl fun _ _ => Phase.noConfusion
    rw [Stmt.events, List.append_assoc, List.append_assoc]
    exact whole_body rfl (fun _ => rfl)
      (List.forall_mem_append.mpr ⟨cond.quiet_events, quiet_decls decls⟩)
      ((whole_stmtEvents body).append ((whole_elseEvents elsePart).append hend))
  | .while cond decls body =>
    have hend : Whole [.exitWhile] := whole_singleton rfl fun _ _ => Phase.noConfusion
    rw [Stmt.events, List.append_assoc]
    exact whole_body rfl (fun _ => rfl)
      (List.forall_mem_append.mpr ⟨cond.quiet_events, quiet_decls decls⟩)
      ((whole_stmtEvents body).append hend)

theorem whole_stmtEvents (stmts : List Stmt) : Whole (stmtEvents stmts) := by
  match stmts with
  | [] => exact whole_nil
  | stmt :: rest => exact (Stmt.whole_events stmt).append (whole_stmtEvents rest)

theorem whole_elseEvents (elsePart : Option ElsePart) : Whole (elseEvents elsePart) := by
  match elsePart with
  | none => exact whole_nil
  | some ⟨decls, body⟩ =>
    have hend : Whole [.exitElse] := whole_singleton rfl fun _ _ => Phase.noConfusion
    rw [elseEvents, List.append_assoc]
    exact whole_body rfl (fun _ => rfl) (quiet_decls decls) ((whole_stmtEvents body).append hend)

end

/-- The events of a procedure can occur between statements, and so after another procedure. -/
theorem FuncDecl.whole_events (func : FuncDecl) : Whole func.events := by
  have hend : Whole [.exitProcedure func.ident] := whole_singleton rfl fun _ _ => Phase.noConfusion
  rw [FuncDecl.events, List.append_assoc]
  exact whole_body rfl (fun _ => rfl)
    (List.forall_mem_append.mpr ⟨quiet_params func.params, quiet_decls func.decls⟩)
    ((whole_stmtEvents func.body).append hend)

/-- In the events of a program, the declarations of a body come before its statements, and an
assignment is not interrupted. -/
theorem Program.admitted_events (program : Program) : Phase.executing.Admitted program.events := by
  have hend : Whole [.exitProgram] := whole_singleton rfl fun _ _ => Phase.noConfusion
  have hfuncs : Whole (program.funcs.flatMap FuncDecl.events) := by
    induction program.funcs with
    | nil => exact whole_nil
    | cons func rest ih => exact func.whole_events.append ih
  have hwhole : Whole program.events := by
    rw [Program.events, List.append_assoc]
    exact whole_body rfl (fun _ => rfl) (quiet_decls program.decls) (hfuncs.append hend)
  exact (hwhole .executing Phase.noConfusion).1

/-- Every event of a program can occur in the phase that the events before it lead to. -/
theorem Program.admits_event {program : Program} {before after : List Event} {event : Event}
    (hevents : program.events = before ++ event :: after) :
    (Phase.executing.afterAll before).Admits event := by
  have h := program.admitted_events
  rw [hevents, admitted_append] at h
  exact h.2.1

end ParseTree

end TinyGen
