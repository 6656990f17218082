import TinyGen.Proofs.Lowering
import TinyGen.Proofs.Meaning

/-!
# Lowering keeps the meaning of statements

`Code.run_ofStatements`: running the three-address code of statements ends in the world that
executing the statements ends in, whatever the temporaries hold at first.

The code of an operand runs before that of the next one, so what it has computed must survive: code
lowered when `n` temporaries are allocated keeps the world and the first `n` temporaries (`Frame`).
A lowered value that is found in a temporary is found in one allocated before the code that follows
(`Operand.Below`), so it is still there when the operation takes it.
-/

namespace TinyGen

open ThreeAddress

universe u v

variable {V : Type u} {I : Type v}

namespace ThreeAddress

/-! ## Frames -/

/-- The world and the first `n` temporaries are kept. -/
structure Frame (n : Nat) (s s' : State V I) : Prop where
  world : s'.world = s.world
  temps : ∀ t : Temp, t.number ≤ n → s'.temps t = s.temps t

namespace Frame

variable {n n' : Nat} {s s' s'' : State V I}

theorem refl (n : Nat) (s : State V I) : Frame n s s :=
  ⟨rfl, fun _ _ => rfl⟩

theorem trans (h : Frame n s s') (h' : Frame n s' s'') : Frame n s s'' :=
  ⟨h'.world.trans h.world, fun t ht => (h'.temps t ht).trans (h.temps t ht)⟩

theorem mono (h : Frame n' s s') (hn : n ≤ n') : Frame n s s' :=
  ⟨h.world, fun t ht => h.temps t (Nat.le_trans ht hn)⟩

/-- A new temporary may be set. -/
theorem store (n : Nat) (s : State V I) (x : V) : Frame n s (s.store (.temp ⟨n + 1⟩) x) := by
  refine ⟨rfl, fun t ht => ?_⟩
  have hne : t ≠ ⟨n + 1⟩ := by
    intro he
    rw [he] at ht
    exact Nat.not_succ_le_self n ht
  exact if_neg hne

/-- An operand that is kept has the value it had. -/
theorem value (h : Frame n s s') {o : Operand} (ho : o.Below n) (m : Meaning V I) (ty : Ty) :
    s'.value m ty o = s.value m ty o := by
  cases o with
  | temp t => exact h.temps t ho
  | var ident => exact congrArg (fun w => w.vars ident) h.world
  | literal text => rfl

end Frame

theorem State.value_store (m : Meaning V I) (ty : Ty) (s : State V I) (t : Temp) (x : V) :
    (s.store (.temp t) x).value m ty (.temp t) = x :=
  if_pos rfl

/-! ## Terms -/

theorem Value.code_computed (code : List Instr) (result : Temp) (ty : Ty) :
    (Value.computed code result ty).code = code := rfl

/-- The code of the value, run when `n` temporaries are allocated, keeps the world and these
temporaries, and then the value of `t` is found where the lowered value says. -/
structure Computes (m : Meaning V I) (n : Nat) (v : Value) (t : Term) : Prop where
  ty : v.ty = t.ty
  frame : ∀ s, Frame n s (run m v.code s)
  value : ∀ s ty, (run m v.code s).value m ty v.location = t.eval m s.world.vars ty

/-- A load makes the operand ready: it has the value that was found at its location. -/
theorem run_ready (m : Meaning V I) (ty : Ty) {v : Value} {n : Nat} (h : v.location.Below n)
    (s : State V I) :
    Frame n s (run m (v.ready ty (n + 1)).1 s) ∧
      (run m (v.ready ty (n + 1)).1 s).value m ty (v.ready ty (n + 1)).2.1 =
        s.value m ty v.location := by
  obtain ⟨code, location, _ | _⟩ := v
  case typed => exact ⟨Frame.refl n s, rfl⟩
  case constant => exact ⟨Frame.store n s _, State.value_store m ty s _ _⟩

/-- The code of an operation first computes both operands, then applies the operator. -/
theorem run_applyOp {m : Meaning V I} {op : BinOp} {l r v : Value} {lhs rhs : Term}
    {n n₁ n₂ n' : Nat} (hl : Lowered n n₁ l) (hr : Lowered n₁ n₂ r) (cl : Computes m n l lhs)
    (cr : Computes m n₁ r rhs) (h : applyOp op l r n₂ = .ok (v, n')) (s : State V I) :
    ∃ s', Frame n s s' ∧ n < n' ∧
      run m v.code s = s'.store (.temp ⟨n'⟩)
        ((Term.binary op lhs rhs).eval m s.world.vars (Term.binary op lhs rhs).ty) := by
  obtain ⟨ty, hty, -, hn', rfl⟩ := applyOp_ok h
  obtain ⟨k₁, hk₁, hle₁, hs₁, hb₁⟩ := ready_shape (hl.below.mono hr.le) ty
  obtain ⟨k₂, hk₂, hle₂, hs₂, -⟩ := ready_shape (hr.below.mono hle₁) ty
  have hown : (Term.binary op lhs rhs).ty = ty := by
    rw [hty, Term.ty, ← cl.ty, ← cr.ty, BinOp.typedBy_map Value.ty]
  rw [hk₁, hk₂] at hn'
  simp only [hk₁, hn', Value.code_computed]
  -- The states after the code of the left and right operand and after their loads.
  let s₁ := run m l.code s
  let s₂ := run m r.code s₁
  let s₃ := run m (l.ready ty (n₂ + 1)).1 s₂
  let s₄ := run m (r.ready ty (k₁ + 1)).1 s₃
  have f₁ : Frame n s s₁ := cl.frame s
  have f₂ : Frame n₁ s₁ s₂ := cr.frame s₁
  obtain ⟨f₃, v₃⟩ := run_ready m ty (hl.below.mono hr.le) s₂
  obtain ⟨f₄, v₄⟩ := run_ready m ty (hr.below.mono hle₁) s₃
  have hleft : s₄.value m ty (l.ready ty (n₂ + 1)).2.1 = lhs.eval m s.world.vars ty := by
    rw [f₄.value hb₁, v₃, f₂.value hl.below]
    exact cl.value s ty
  have hright : s₄.value m ty (r.ready ty (k₁ + 1)).2.1 = rhs.eval m s.world.vars ty := by
    rw [v₄, f₃.value hr.below, ← f₁.world]
    exact cr.value s₁ ty
  have hn : n ≤ n₁ := hl.le
  have hn₁ : n₁ ≤ n₂ := hr.le
  refine ⟨s₄, ?_, by omega, ?_⟩
  · exact ((f₁.trans (f₂.mono hn)).trans (f₃.mono (by omega))).trans (f₄.mono (by omega))
  · rw [run_append hl.straight.no_ret, run_append hr.straight.no_ret, run_append hs₁.no_ret,
      run_append hs₂.no_ret, run_single]
    show s₄.store (.temp ⟨k₂ + 1⟩) (m.arith op ty (s₄.value m ty (l.ready ty (n₂ + 1)).2.1)
      (s₄.value m ty (r.ready ty (k₁ + 1)).2.1)) = _
    rw [hleft, hright, Term.eval, hown]

theorem applyOp_computes {m : Meaning V I} {op : BinOp} {l r v : Value} {lhs rhs : Term}
    {n n₁ n₂ n' : Nat} (hl : Lowered n n₁ l) (hr : Lowered n₁ n₂ r) (cl : Computes m n l lhs)
    (cr : Computes m n₁ r rhs) (h : applyOp op l r n₂ = .ok (v, n')) :
    Computes m n v (.binary op lhs rhs) := by
  have hrun := run_applyOp hl hr cl cr h
  obtain ⟨ty, hty, -, -, hv⟩ := applyOp_ok h
  have hloc : v.location = .temp ⟨n'⟩ := by rw [hv]; rfl
  refine ⟨?_, fun s => ?_, fun s ty' => ?_⟩
  · rw [Term.ty, ← cl.ty, ← cr.ty, BinOp.typedBy_map Value.ty, ← hty, hv]
    rfl
  · obtain ⟨s', hf, hlt, he⟩ := hrun s
    obtain ⟨k, rfl⟩ : ∃ k, n' = k + 1 := ⟨n' - 1, by omega⟩
    rw [he]
    exact hf.trans ((Frame.store k s' _).mono (Nat.le_of_lt_succ hlt))
  · obtain ⟨s', -, -, he⟩ := hrun s
    rw [he, hloc, State.value_store]
    rfl

end ThreeAddress

/-- The code of a lowered term computes the term. -/
theorem Term.lower_computes (m : Meaning V I) {t : Term} {n n' : Nat} {v : Value}
    (h : t.lower n = .ok (v, n')) : Computes m n v t := by
  induction t generalizing n n' v with
  | literal text => cases h; exact ⟨rfl, fun s => Frame.refl n s, fun _ _ => rfl⟩
  | var v => cases h; exact ⟨rfl, fun s => Frame.refl n s, fun _ _ => rfl⟩
  | binary op lhs rhs ihl ihr =>
    obtain ⟨l, n₁, r, n₂, hl, hr, hop⟩ := lower_binary_ok h
    exact applyOp_computes (lower_shape hl) (lower_shape hr) (ihl hl) (ihr hr) hop

namespace ThreeAddress

/-! ## Statements -/

/-- Copying by way of a new temporary sets the target to the value of the source. -/
theorem run_storeVia (m : Meaning V I) (ty : Ty) (src : Operand) (ident : String) (n : Nat)
    (s : State V I) :
    (run m (storeVia ty src (.var ident) n).1 s).world = s.world.set ident (s.value m ty src) := by
  show World.set _ _ (State.value m ty (s.store (.temp ⟨n + 1⟩) _) (.temp ⟨n + 1⟩)) = _
  rw [State.value_store]
  rfl

/-- What is stored is found at a place that the type does not matter for, unless it is a constant. -/
theorem Value.Formed.value_eq {v : Value} (h : v.Formed) {ty : Ty} (hkind : v.kind = .typed ty)
    (m : Meaning V I) (s : State V I) (ty₁ ty₂ : Ty) :
    s.value m ty₁ v.location = s.value m ty₂ v.location := by
  cases h with
  | var v => rfl
  | constant text => cases hkind
  | computed hcode result hty => rfl

/-- Storing a lowered value sets the target to the value of the term, used at the type of the
target. -/
theorem run_storeValue {m : Meaning V I} {n n₁ n₂ : Nat} {v : Value} {t : Term} {target : VarRef}
    {instrs : List Instr} (h : Straight v.code) (hf : v.Formed) (c : Computes m n v t)
    (hstore : storeValue target v n₁ = .ok (instrs, n₂)) (s : State V I) :
    (run m instrs s).world = s.world.set target.ident (t.eval m s.world.vars target.ty) := by
  have hv := c.value s target.ty
  have hw := (c.frame s).world
  obtain ⟨ty, hkind, -, -, rfl⟩ | ⟨hcode, ty, hkind, hvia⟩ := storeValue_ok hstore
  · rw [run_append h.no_ret, run_single, ← hv, hf.value_eq hkind m _ target.ty ty, ← hw]
    rfl
  · obtain rfl : (storeVia ty v.location (.var target.ident) n₁).1 = instrs := congrArg Prod.fst hvia
    rw [run_storeVia, ← hv, hcode]
    obtain ⟨hfloat, rfl⟩ | ⟨-, rfl⟩ := hkind
    · rw [hf.value_eq hfloat m _ .float target.ty]
      rfl
    · rfl

theorem run_readVars (m : Meaning V I) {vars : List VarRef} {instrs : List Instr}
    (h : readVars vars = .ok instrs) (s : State V I) :
    (run m instrs s).world =
      vars.foldl (fun w v => w.read m.toOperations v.ty v.ident) s.world := by
  induction vars generalizing instrs s with
  | nil => cases h; rfl
  | cons v rest ih =>
    rw [readVars] at h
    split at h
    · cases h
    · cases hr : readVars rest with
      | error e => rw [hr] at h; cases h
      | ok more =>
        rw [hr] at h
        cases h
        exact ih hr _

theorem run_writes (m : Meaning V I) (vars : List VarRef) (s : State V I) :
    (run m (vars.map fun v => .write v.ty v.ident) s).world =
      vars.foldl (fun w v => w.write v.ty v.ident) s.world := by
  induction vars generalizing s with
  | nil => rfl
  | cons v rest ih => exact ih _

/-- The code of a statement does to the world what the statement does. -/
theorem run_lowerStatement (m : Meaning V I) {statement : Statement} {n n' : Nat}
    {instrs : List Instr} (h : lowerStatement statement n = .ok (instrs, n')) (s : State V I) :
    (run m instrs s).world = statement.exec m s.world := by
  cases statement with
  | assign target value =>
    obtain ⟨v, k, hv, hstore⟩ := lowerStatement_assign_ok h
    exact run_storeValue (Term.lower_shape hv).straight (Term.lower_formed hv)
      (Term.lower_computes m hv) hstore s
  | stringDecl ident literal => cases h; rfl
  | read vars => exact run_readVars m (lowerStatement_read_ok h).1 s
  | write vars =>
    cases h
    exact run_writes m vars s

theorem run_lowerStatements (m : Meaning V I) {statements : List Statement} {n n' : Nat}
    {instrs : List Instr} (h : lowerStatements statements n = .ok (instrs, n')) (s : State V I) :
    (run m instrs s).world = Statement.execAll m statements s.world := by
  induction statements generalizing n instrs s with
  | nil => cases h; rfl
  | cons statement rest ih =>
    obtain ⟨first, n₁, more, hf, hr, rfl⟩ := lowerStatements_cons h
    rw [run_append (lowerStatement_straight hf).no_ret, ih hr, run_lowerStatement m hf]
    rfl

/-- **Lowering keeps the meaning.** From any world and any contents of the temporaries, the code of
statements ends in the world that executing the statements ends in: with the same cells, the same
input left and the same output. -/
theorem Code.run_ofStatements (m : Meaning V I) {statements : List Statement} {code : Code}
    (h : Code.ofStatements statements = .ok code) (w : World V I) (temps : Temp → V) :
    (run m code.instrs ⟨w, temps⟩).world = Statement.execAll m statements w := by
  obtain ⟨body, hb, hi⟩ := Code.ofStatements_ok h
  rw [hi]
  show (run m (body ++ [.ret]) ⟨w, temps⟩).world = _
  rw [run_ret]
  exact run_lowerStatements m hb _

/-- `x := (2 + a) * (a - 1.5)` between a read of `a` and a write of `x`. The sum and the product are of
type `INT`, the difference is of type `FLOAT`. A constant stands for the length of its text, and at
type `FLOAT` for ten times as much; an operation of type `FLOAT` adds 1000 to its result. -/
theorem Code.run_mixed_types :
    let m : Meaning Int (List Int) :=
      { arith := fun op ty x y =>
          Operations.integers.arith op ty x y + if ty = .float then 1000 else 0
        read := Operations.integers.read
        load := fun ty text => if ty = .float then 10 * text.length else text.length }
    let statements : List Statement :=
      [.read [⟨"a", .int⟩],
        .assign ⟨"x", .float⟩ (.binary .mul (.binary .add (.literal "2") (.var ⟨"a", .int⟩))
          (.binary .sub (.var ⟨"a", .int⟩) (.literal "1.5"))),
        .write [⟨"x", .float⟩]]
    ∃ code, Code.ofStatements statements = .ok code ∧ code.temps = 5 ∧
      (run m code.instrs ⟨⟨fun _ => 0, [40, 7], []⟩, fun _ => 9⟩).world =
        Statement.execAll m statements ⟨fun _ => 0, [40, 7], []⟩ ∧
      (Statement.execAll m statements ⟨fun _ => 0, [40, 7], []⟩).output = [(.float, 41410)] := by
  intro m statements
  obtain ⟨code, h, ht⟩ : ∃ code, Code.ofStatements statements = .ok code ∧ code.temps = 5 :=
    ⟨_, by cbv, rfl⟩
  exact ⟨code, h, ht, Code.run_ofStatements m h _ _, by decide⟩

end ThreeAddress

end TinyGen
