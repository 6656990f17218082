import TinyGen.Proofs.Meaning
import TinyGen.ThreeAddress.Lowering

/-!
# Lowering by recursion

The machine that lowers a term works on its post-order listing. Here the same is said by recursion
on the term, which is the form that proofs about lowered code use.

* `Term.postOrder_eq_nodes`: the listing is the recursive one.
* `lowerTerm_eq`: the machine lowers the left operand, then the right one, then applies the operator
  (`Term.lower`); it never misses an operand.
* `Term.lower_shape`: where the temporaries of lowered code stand, and what its instructions look
  like (`Lowered`).
* `Code.ofStatements_selectable`: lowered code has the form that the target machine can execute
  (`Code.Selectable`).
-/

namespace TinyGen

open ThreeAddress

/-! ## Post-order -/

/-- The nodes of a term, operands before operators. -/
def Term.nodes : Term → List Term
  | .literal text => [.literal text]
  | .var v => [.var v]
  | .binary op lhs rhs => lhs.nodes ++ rhs.nodes ++ [.binary op lhs rhs]

namespace PostOrder

private theorem toList_nil : (PostOrder.mk []).toList = [] := by
  rw [toList]
  rfl

private theorem toList_expanded (node : Term) (stack : List (Term × Bool)) :
    (PostOrder.mk ((node, true) :: stack)).toList = node :: (PostOrder.mk stack).toList := by
  rw [toList]
  rfl

theorem toList_descend (node : Term) (stack : List (Term × Bool)) :
    (PostOrder.mk ((node, false) :: stack)).toList =
      (descend node stack).1 :: (descend node stack).2.toList := by
  rw [toList]
  rfl

/-- A node that is not expanded is listed with all nodes below it, before the rest of the stack. -/
theorem toList_node (node : Term) (stack : List (Term × Bool)) :
    (PostOrder.mk ((node, false) :: stack)).toList =
      node.nodes ++ (PostOrder.mk stack).toList := by
  induction node generalizing stack with
  | literal text => rw [toList_descend]; rfl
  | var v => rw [toList_descend]; rfl
  | binary op lhs rhs ihl ihr =>
    -- Descending into the node is descending into its left operand, over the other two entries.
    have hl := ihl ((rhs, false) :: (.binary op lhs rhs, true) :: stack)
    rw [toList_descend] at hl
    rw [toList_descend, descend, hl, ihr, toList_expanded]
    simp [Term.nodes]

end PostOrder

theorem Term.postOrder_eq_nodes (t : Term) : t.postOrder = t.nodes := by
  rw [postOrder, PostOrder.toList_node, PostOrder.toList_nil, List.append_nil]

/-! ## The machine -/

/-- The value of a term when `temps` temporaries are allocated, by recursion on the term. -/
def Term.lower : Term → (temps : Nat) → Except Error (Value × Nat)
  | .literal text, temps => .ok (.constant text, temps)
  | .var v, temps => .ok (.var v, temps)
  | .binary op lhs rhs, temps =>
    match lhs.lower temps with
    | .error e => .error e
    | .ok (left, temps) =>
      match rhs.lower temps with
      | .error e => .error e
      | .ok (right, temps) => applyOp op left right temps

theorem Term.lower_binary_ok {op : BinOp} {lhs rhs : Term} {n n' : Nat} {v : Value}
    (h : (Term.binary op lhs rhs).lower n = .ok (v, n')) :
    ∃ l n₁ r n₂, lhs.lower n = .ok (l, n₁) ∧ rhs.lower n₁ = .ok (r, n₂) ∧
      applyOp op l r n₂ = .ok (v, n') := by
  rw [lower] at h
  split at h
  · cases h
  · rename_i l n₁ hl
    split at h
    · cases h
    · rename_i r n₂ hr
      exact ⟨l, n₁, r, n₂, hl, hr, h⟩

theorem Term.lower_binary (op : BinOp) (lhs rhs : Term) (n : Nat) :
    (Term.binary op lhs rhs).lower n =
      lhs.lower n >>= fun left => rhs.lower left.2 >>= fun right => applyOp op left.1 right.1 right.2 := by
  rw [lower]
  cases lhs.lower n with
  | error e => rfl
  | ok left =>
    simp only [bind, Except.bind]
    cases rhs.lower left.2 <;> rfl

namespace ThreeAddress

/-- Over the nodes of a term the machine puts the value of the term on its stack. -/
theorem Machine.run_nodes (t : Term) (stack : List Value) (temps : Nat) (rest : List Term) :
    (Machine.mk stack temps).run (t.nodes ++ rest) =
      match t.lower temps with
      | .error e => .error (.error e)
      | .ok (value, temps) => (Machine.mk (value :: stack) temps).run rest := by
  induction t generalizing stack temps rest with
  | literal text => rfl
  | var v => rfl
  | binary op lhs rhs ihl ihr =>
    rw [Term.nodes, List.append_assoc, List.append_assoc, ihl, Term.lower]
    cases lhs.lower temps with
    | error e => rfl
    | ok left =>
      obtain ⟨left, temps⟩ := left
      simp only [ihr]
      cases rhs.lower temps with
      | error e => rfl
      | ok right =>
        obtain ⟨right, temps⟩ := right
        simp only [List.singleton_append, Machine.run, Machine.step]
        cases applyOp op left right temps with
        | error e => rfl
        | ok value => rfl

theorem lowerTerm_eq (t : Term) (temps : Nat) :
    lowerTerm t temps = (t.lower temps).mapError .error := by
  have h := Machine.run_nodes t [] temps []
  rw [List.append_nil] at h
  rw [lowerTerm, Term.postOrder_eq_nodes, h]
  cases t.lower temps with
  | error e => rfl
  | ok value => rfl

/-! ## Shape of lowered code -/

/-- The operand is no temporary after the first `n`. -/
def Operand.Below (n : Nat) : Operand → Prop
  | .temp t => t.number ≤ n
  | .var _ => True
  | .literal _ => True

theorem Operand.Below.mono {n n' : Nat} {o : Operand} (h : o.Below n) (hn : n ≤ n') :
    o.Below n' := by
  cases o with
  | temp t => exact Nat.le_trans h hn
  | var ident => trivial
  | literal text => trivial

/-- An instruction that the target machine can execute: it stores into no constant, operates and
reads at a numeric type only, and does not overwrite the right operand of an operation by its
result. -/
def Instr.Selectable : Instr → Prop
  | .store _ _ (.literal _) => False
  | .binary _ ty _ rhs dst => ty ≠ .string ∧ rhs ≠ .temp dst
  | .read ty _ => ty ≠ .string
  | _ => True

/-- Code that the target machine can execute: each instruction is, and a return stands only at the
end. -/
structure Code.Selectable (code : Code) : Prop where
  ret_last : .ret ∉ code.instrs.dropLast
  each : ∀ i ∈ code.instrs, i.Selectable

/-- Selectable instructions without a return. -/
def Straight (instrs : List Instr) : Prop :=
  ∀ i ∈ instrs, i ≠ .ret ∧ i.Selectable

namespace Straight

theorem nil : Straight [] := by
  intro i hi
  cases hi

theorem cons {i : Instr} {rest : List Instr} (hi : i ≠ .ret) (hs : i.Selectable)
    (h : Straight rest) : Straight (i :: rest) := by
  intro j hj
  rcases List.mem_cons.mp hj with rfl | hj
  · exact ⟨hi, hs⟩
  · exact h j hj

theorem no_ret {instrs : List Instr} (h : Straight instrs) : .ret ∉ instrs :=
  fun hm => (h _ hm).1 rfl

theorem append {a b : List Instr} (ha : Straight a) (hb : Straight b) : Straight (a ++ b) := by
  intro i hi
  rcases List.mem_append.mp hi with hi | hi
  · exact ha i hi
  · exact hb i hi

end Straight

/-- A value lowered with temporaries after the first `n` and up to `n'`: its code is straight, and
it is found in one of the first `n'` temporaries, unless it is a variable or a constant. -/
structure Lowered (n n' : Nat) (v : Value) : Prop where
  le : n ≤ n'
  straight : Straight v.code
  below : v.location.Below n'

/-- What `Value.ready` gives: the load is straight, and the operand is allocated before the temporary
that is left for the result. -/
theorem ready_shape {v : Value} {n : Nat} (h : v.location.Below n) (ty : Ty) :
    ∃ n', (v.ready ty (n + 1)).2.2 = n' + 1 ∧ n ≤ n' ∧ Straight (v.ready ty (n + 1)).1 ∧
      (v.ready ty (n + 1)).2.1.Below n' := by
  obtain ⟨code, location, _ | _⟩ := v
  case typed => exact ⟨n, rfl, Nat.le_refl n, .nil, h⟩
  case constant =>
    exact ⟨n + 1, rfl, Nat.le_succ n, .cons (by simp) trivial .nil, Nat.le_refl _⟩

theorem applyOp_of_string {op : BinOp} {l r : Value}
    (h : (op.typedBy l r).ty = .string) (n : Nat) :
    applyOp op l r n =
      .error (.stringArithmetic (op.typedBy l r).location.text) := by
  simp only [applyOp, BinOp.ite_isAdditive, if_pos h]

theorem applyOp_of_number {op : BinOp} {l r : Value}
    (h : (op.typedBy l r).ty ≠ .string) (n : Nat) :
    let ty := (op.typedBy l r).ty
    let left := l.ready ty (n + 1)
    let right := r.ready ty left.2.2
    applyOp op l r n =
      .ok (.computed (l.code ++ (r.code ++ (left.1 ++ (right.1 ++
        [.binary op ty left.2.1 right.2.1 ⟨right.2.2⟩])))) ⟨right.2.2⟩ ty, right.2.2) := by
  simp only [applyOp, BinOp.ite_isAdditive, if_neg h]

/-- Everything that `applyOp` gives when it succeeds. -/
theorem applyOp_ok {op : BinOp} {l r v : Value} {n n' : Nat} (h : applyOp op l r n = .ok (v, n')) :
    ∃ ty, ty = (op.typedBy l r).ty ∧ ty ≠ .string ∧
      n' = (r.ready ty (l.ready ty (n + 1)).2.2).2.2 ∧
      v = .computed (l.code ++ (r.code ++ ((l.ready ty (n + 1)).1 ++
        ((r.ready ty (l.ready ty (n + 1)).2.2).1 ++ [.binary op ty (l.ready ty (n + 1)).2.1
          (r.ready ty (l.ready ty (n + 1)).2.2).2.1 ⟨n'⟩])))) ⟨n'⟩ ty := by
  by_cases hty : (op.typedBy l r).ty = .string
  · rw [applyOp_of_string hty] at h
    cases h
  · rw [applyOp_of_number hty] at h
    cases h
    exact ⟨_, rfl, hty, rfl, rfl⟩

theorem applyOp_shape {op : BinOp} {l r v : Value} {n n₁ n₂ n' : Nat} (hl : Lowered n n₁ l)
    (hr : Lowered n₁ n₂ r) (h : applyOp op l r n₂ = .ok (v, n')) : Lowered n n' v := by
  obtain ⟨ty, -, hty, hn', hv⟩ := applyOp_ok h
  obtain ⟨k₁, hk₁, hle₁, hs₁, -⟩ := ready_shape (hl.below.mono hr.le) ty
  obtain ⟨k₂, hk₂, hle₂, hs₂, hb₂⟩ := ready_shape (hr.below.mono hle₁) ty
  rw [hk₁, hk₂] at hn'
  rw [hk₁] at hv
  subst hn' hv
  have hle : n ≤ n₁ := hl.le
  have hle' : n₁ ≤ n₂ := hr.le
  -- The right operand is below the result, so the operation does not overwrite it.
  have hne : (r.ready ty (k₁ + 1)).2.1 ≠ .temp ⟨k₂ + 1⟩ := by
    intro he
    rw [he] at hb₂
    exact Nat.not_succ_le_self k₂ hb₂
  refine ⟨by omega, ?_, Nat.le_refl _⟩
  exact hl.straight.append (hr.straight.append
    (hs₁.append (hs₂.append (.cons (by simp) ⟨hty, hne⟩ .nil))))

end ThreeAddress

/-- The shape of a lowered term. -/
theorem Term.lower_shape {t : Term} {n n' : Nat} {v : Value} (h : t.lower n = .ok (v, n')) :
    Lowered n n' v := by
  induction t generalizing n n' v with
  | literal text => cases h; exact ⟨Nat.le_refl n, .nil, trivial⟩
  | var v => cases h; exact ⟨Nat.le_refl n, .nil, trivial⟩
  | binary op lhs rhs ihl ihr =>
    obtain ⟨l, n₁, r, n₂, hl, hr, hop⟩ := lower_binary_ok h
    exact applyOp_shape (ihl hl) (ihr hr) hop

namespace ThreeAddress

/-- A value as lowering makes it: a variable, a constant, or a number that code computes. -/
inductive Value.Formed : Value → Prop where
  | var (v : VarRef) : Formed (.var v)
  | constant (text : String) : Formed (.constant text)
  | computed {code : List Instr} {ty : Ty} (hcode : code ≠ []) (result : Temp) (hty : ty ≠ .string) :
      Formed (.computed code result ty)

/-- A value of type `STRING` is a variable: constants and computed values are numbers. -/
theorem Value.Formed.eq_var_of_string {v : Value} (h : v.Formed) (hty : v.ty = .string) :
    ∃ ref, v = .var ref := by
  cases h with
  | var ref => exact ⟨ref, rfl⟩
  | constant text => exact absurd hty (Ty.ofLiteral_ne_string text)
  | computed hcode result hne => exact absurd hty hne

theorem applyOp_formed {op : BinOp} {l r v : Value} {n n' : Nat}
    (h : applyOp op l r n = .ok (v, n')) : v.Formed := by
  obtain ⟨ty, -, hty, -, rfl⟩ := applyOp_ok h
  exact .computed (by simp) _ hty

end ThreeAddress

theorem Term.lower_formed {t : Term} {n n' : Nat} {v : Value} (h : t.lower n = .ok (v, n')) :
    v.Formed := by
  cases t with
  | literal text => cases h; exact .constant text
  | var v => cases h; exact .var v
  | binary op lhs rhs =>
    obtain ⟨l, n₁, r, n₂, -, -, hop⟩ := lower_binary_ok h
    exact applyOp_formed hop

namespace ThreeAddress


/-! ## Storing -/

/-- Everything that storing a value gives: its code and a copy of it, or, without code, a copy by way
of a temporary. -/
theorem storeValue_ok {target : VarRef} {v : Value} {n n' : Nat} {instrs : List Instr}
    (h : storeValue target v n = .ok (instrs, n')) :
    (∃ ty, v.kind = .typed ty ∧ (v.code = [] → ty ≠ .float) ∧ n' = n ∧
      instrs = v.code ++ [.store ty v.location (.var target.ident)]) ∨
    (v.code = [] ∧ ∃ ty, (v.kind = .typed .float ∧ ty = .float ∨ v.kind = .constant ∧ ty = target.ty) ∧
      storeVia ty v.location (.var target.ident) n = (instrs, n')) := by
  obtain ⟨code, location, kind⟩ := v
  rw [storeValue] at h
  by_cases hcode : code = []
  · subst hcode
    match kind with
    | .constant => exact .inr ⟨rfl, _, .inr ⟨rfl, rfl⟩, Except.ok.inj h⟩
    | .typed .float => exact .inr ⟨rfl, _, .inl ⟨rfl, rfl⟩, Except.ok.inj h⟩
    | .typed .int => cases h; exact .inl ⟨.int, rfl, fun _ => nofun, rfl, rfl⟩
    | .typed .string => cases h; exact .inl ⟨.string, rfl, fun _ => nofun, rfl, rfl⟩
  · rw [if_pos hcode] at h
    cases kind with
    | constant => cases h
    | typed ty =>
      cases h
      exact .inl ⟨ty, rfl, fun he => absurd he hcode, rfl, rfl⟩

/-- A value that lowering makes can be stored: if it has code, it has a type. -/
theorem Value.Formed.exists_storeValue {v : Value} (h : v.Formed) (target : VarRef) (n : Nat) :
    ∃ stored, storeValue target v n = .ok stored := by
  cases h with
  | var v =>
    obtain ⟨ident, _ | _ | _⟩ := v <;> exact ⟨_, rfl⟩
  | constant text => exact ⟨_, rfl⟩
  | computed hcode result hty => exact ⟨_, if_pos hcode⟩

/-! ## Shape of lowered statements -/

theorem storeValue_straight {target : VarRef} {v : Value} {n n' : Nat} {instrs : List Instr}
    (hv : Straight v.code) (h : storeValue target v n = .ok (instrs, n')) : Straight instrs := by
  obtain ⟨ty, -, -, -, rfl⟩ | ⟨-, ty, -, hvia⟩ := storeValue_ok h
  · exact hv.append (.cons (by simp) trivial .nil)
  · cases hvia
    exact .cons (by simp) trivial (.cons (by simp) trivial .nil)

theorem readVars_straight {vars : List VarRef} {instrs : List Instr}
    (h : readVars vars = .ok instrs) : Straight instrs := by
  induction vars generalizing instrs with
  | nil => cases h; exact .nil
  | cons v rest ih =>
    rw [readVars] at h
    split at h
    · cases h
    · rename_i hty
      cases hr : readVars rest with
      | error e => rw [hr] at h; cases h
      | ok more =>
        rw [hr] at h
        cases h
        exact .cons (by simp) hty (ih hr)

theorem lowerStatement_assign (target : VarRef) (value : Term) (n : Nat) :
    lowerStatement (.assign target value) n =
      (value.lower n).mapError Fault.error >>= fun lowered =>
        Fault.ofMisuse (storeValue target lowered.1 lowered.2) := by
  rw [lowerStatement, lowerTerm_eq]
  cases value.lower n <;> rfl

theorem lowerStatement_read (vars : List VarRef) (n : Nat) :
    lowerStatement (.read vars) n =
      ((readVars vars).map fun instrs => (instrs, n)).mapError .error := by
  rw [lowerStatement]
  cases readVars vars <;> rfl

theorem lowerStatement_assign_ok {target : VarRef} {value : Term} {n n' : Nat}
    {instrs : List Instr} (h : lowerStatement (.assign target value) n = .ok (instrs, n')) :
    ∃ v m, value.lower n = .ok (v, m) ∧ storeValue target v m = .ok (instrs, n') := by
  rw [lowerStatement_assign] at h
  cases hv : value.lower n with
  | error e => rw [hv] at h; cases h
  | ok lowered =>
    obtain ⟨stored, hstored⟩ := (Term.lower_formed hv).exists_storeValue target lowered.2
    have hok : Fault.ofMisuse (storeValue target lowered.1 lowered.2) = .ok (instrs, n') := by
      rw [hv] at h
      exact h
    rw [hstored] at hok
    cases hok
    exact ⟨lowered.1, lowered.2, rfl, hstored⟩

theorem lowerStatement_read_ok {vars : List VarRef} {n n' : Nat} {instrs : List Instr}
    (h : lowerStatement (.read vars) n = .ok (instrs, n')) :
    readVars vars = .ok instrs ∧ n' = n := by
  rw [lowerStatement] at h
  split at h
  · cases h
  · rename_i hr
    cases h
    exact ⟨hr, rfl⟩

theorem lowerStatement_straight {statement : Statement} {n n' : Nat} {instrs : List Instr}
    (h : lowerStatement statement n = .ok (instrs, n')) : Straight instrs := by
  cases statement with
  | assign target value =>
    obtain ⟨v, m, hv, hstore⟩ := lowerStatement_assign_ok h
    exact storeValue_straight (Term.lower_shape hv).straight hstore
  | stringDecl ident literal => cases h; exact .nil
  | read vars => exact readVars_straight (lowerStatement_read_ok h).1
  | write vars =>
    cases h
    intro i hi
    obtain ⟨v, -, rfl⟩ := List.mem_map.mp hi
    exact ⟨by simp, trivial⟩

/-- What a list of statements is lowered to, when that succeeds: the code of the first one, then
that of the others. -/
theorem lowerStatements_cons {statement : Statement} {rest : List Statement} {n n' : Nat}
    {instrs : List Instr} (h : lowerStatements (statement :: rest) n = .ok (instrs, n')) :
    ∃ first n₁ more, lowerStatement statement n = .ok (first, n₁) ∧
      lowerStatements rest n₁ = .ok (more, n') ∧ instrs = first ++ more := by
  rw [lowerStatements] at h
  cases hf : lowerStatement statement n with
  | error fault => rw [hf] at h; cases h
  | ok first =>
    obtain ⟨first, n₁⟩ := first
    rw [hf] at h
    cases hr : lowerStatements rest n₁ with
    | error fault => simp only [bind, Except.bind, hr] at h; cases h
    | ok more =>
      obtain ⟨more, n₂⟩ := more
      simp only [bind, Except.bind, hr] at h
      cases h
      exact ⟨first, n₁, more, rfl, hr, rfl⟩

theorem lowerStatements_straight {statements : List Statement} {n n' : Nat} {instrs : List Instr}
    (h : lowerStatements statements n = .ok (instrs, n')) : Straight instrs := by
  induction statements generalizing n instrs with
  | nil => cases h; exact .nil
  | cons statement rest ih =>
    obtain ⟨first, n₁, more, hf, hr, rfl⟩ := lowerStatements_cons h
    exact (lowerStatement_straight hf).append (ih hr)

/-- The code of statements is what they are lowered to, between an entry label and a return. -/
theorem Code.ofStatements_ok {statements : List Statement} {code : Code}
    (h : Code.ofStatements statements = .ok code) :
    ∃ body, lowerStatements statements 0 = .ok (body, code.temps) ∧
      code.instrs = .label "main" :: .link :: (body ++ [.ret]) := by
  rw [Code.ofStatements] at h
  cases hb : lowerStatements statements 0 with
  | error fault => rw [hb] at h; cases h
  | ok body =>
    rw [hb] at h
    cases h
    exact ⟨body.1, rfl, rfl⟩

/-- **Lowered code is selectable.** -/
theorem Code.ofStatements_selectable {statements : List Statement} {code : Code}
    (h : Code.ofStatements statements = .ok code) : code.Selectable := by
  obtain ⟨body, hb, hi⟩ := Code.ofStatements_ok h
  have hs : Straight (.label "main" :: .link :: body) :=
    .cons (by simp) trivial (.cons (by simp) trivial (lowerStatements_straight hb))
  have hc : code.instrs = (.label "main" :: .link :: body) ++ [.ret] := hi
  constructor
  · rw [hc, List.dropLast_concat]
    exact hs.no_ret
  · intro i hm
    rw [hc] at hm
    rcases List.mem_append.mp hm with hm | hm
    · exact (hs i hm).2
    · rw [List.mem_singleton.mp hm]
      trivial

end ThreeAddress

end TinyGen
