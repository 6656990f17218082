import TinyGen.Proofs.Registers

/-!
# Temporaries of lowered code

Lowering numbers temporaries while it works on operands, and it puts code together afterwards. The two
orders are the same: the temporaries of lowered code are defined one after another, and each is used
once, further down in the code of its statement. This is `Code.ofStatements_linear`, which also says
how many there are.

`Linear` is the statement of the induction. Code is linear up to temporaries that are still pending,
such as the one that holds the value computed last; an instruction that uses all that is pending
closes it (`Linear.concat`).
-/

namespace TinyGen

namespace ThreeAddress

/-- The temporaries after the first `n`, up to number `n'`, in order. -/
def Temp.between (n n' : Nat) : List Temp :=
  (List.range' (n + 1) (n' - n)).map Temp.mk

/-- The temporaries that an instruction takes its operands from. -/
def Instr.used : Instr → List Temp
  | .store _ src _ => src.mentioned
  | .binary _ _ lhs rhs _ => lhs.mentioned ++ rhs.mentioned
  | _ => []

/-- The temporary that an instruction stores into. -/
def Instr.defined : Instr → List Temp
  | .store _ _ dst => dst.mentioned
  | .binary _ _ _ _ dst => [dst]
  | _ => []

theorem Instr.mentioned_eq (i : Instr) : i.mentioned = i.used ++ i.defined := by
  cases i with
  | binary op ty lhs rhs dst => exact (List.append_assoc _ _ _).symm
  | _ => rfl

namespace Temp

theorem between_self (n : Nat) : between n n = [] := by
  simp [between]

theorem between_succ (n : Nat) : between n (n + 1) = [⟨n + 1⟩] := by
  simp [between]

/-- Consecutive ranges join. -/
theorem between_append {n m n' : Nat} (h : n ≤ m) (h' : m ≤ n') :
    between n m ++ between m n' = between n n' := by
  have hstart : m + 1 = n + 1 + (m - n) := by omega
  have hlength : n' - n = (m - n) + (n' - m) := by omega
  rw [between, between, between, ← List.map_append, hstart, List.range'_append_1, hlength]

theorem nodup_between (n n' : Nat) : (between n n').Nodup := by
  refine List.Pairwise.map _ (fun a b hab he => hab ?_) List.nodup_range'
  exact congrArg Temp.number he

end Temp

/-! ## Use after definition -/

/-- Every temporary that is used is one of `known`, or it is defined by an earlier instruction. -/
def DefinedFirst (known : List Temp) : List Instr → Prop
  | [] => True
  | i :: rest => i.used ⊆ known ∧ DefinedFirst (known ++ i.defined) rest

/-- An instruction defines the temporary, and one that comes later uses it. -/
def UsedLater (t : Temp) (instrs : List Instr) : Prop :=
  ∃ a definition b use c, instrs = a ++ definition :: (b ++ use :: c) ∧
    t ∈ definition.defined ∧ t ∈ use.used

/-- The second part of code may use what the first has defined. -/
theorem definedFirst_append {known : List Temp} {a b : List Instr} :
    DefinedFirst known (a ++ b) ↔
      DefinedFirst known a ∧ DefinedFirst (known ++ a.flatMap Instr.defined) b := by
  induction a generalizing known with
  | nil => simp [DefinedFirst]
  | cons i rest ih =>
    simp only [List.cons_append, DefinedFirst, ih, List.flatMap_cons, List.append_assoc, and_assoc]

theorem DefinedFirst.mono {known known' : List Temp} {instrs : List Instr}
    (h : DefinedFirst known instrs) (hk : known ⊆ known') : DefinedFirst known' instrs := by
  induction instrs generalizing known known' with
  | nil => trivial
  | cons i rest ih =>
    refine ⟨fun t ht => hk (h.1 ht), ih h.2 fun t ht => ?_⟩
    rcases List.mem_append.mp ht with ht | ht
    · exact List.mem_append_left _ (hk ht)
    · exact List.mem_append_right _ ht

/-- A temporary that is used has been defined earlier. -/
theorem DefinedFirst.usedLater {instrs : List Instr} (h : DefinedFirst [] instrs) {t : Temp}
    (ht : t ∈ instrs.flatMap Instr.used) : UsedLater t instrs := by
  obtain ⟨use, huse, htu⟩ := List.mem_flatMap.mp ht
  obtain ⟨before, c, rfl⟩ := List.append_of_mem huse
  have hknown : t ∈ [] ++ before.flatMap Instr.defined := (definedFirst_append.mp h).2.1 htu
  obtain ⟨definition, hdefinition, htd⟩ := List.mem_flatMap.mp hknown
  obtain ⟨a, b, rfl⟩ := List.append_of_mem hdefinition
  exact ⟨a, definition, b, use, c, by simp, htd, htu⟩

/-! ## Linear code -/

/-- Code that defines the temporaries after the first `n`, up to `n'`, in order, and uses each of them
once, after its definition. Those of `pending` are still to be used. -/
structure Linear (n n' : Nat) (instrs : List Instr) (pending : List Temp) : Prop where
  le : n ≤ n'
  defined : instrs.flatMap Instr.defined = Temp.between n n'
  used : (instrs.flatMap Instr.used ++ pending).Perm (Temp.between n n')
  first : DefinedFirst [] instrs

namespace Linear

variable {n m n' : Nat} {a b : List Instr} {p q : List Temp}

theorem nil (n : Nat) : Linear n n [] [] := by
  refine ⟨Nat.le_refl n, ?_, ?_, trivial⟩
  · exact (Temp.between_self n).symm
  · rw [Temp.between_self]
    exact .refl _

/-- Code in two parts numbers its temporaries on, and leaves over what both leave. -/
theorem append (ha : Linear n m a p) (hb : Linear m n' b q) : Linear n n' (a ++ b) (p ++ q) := by
  refine ⟨Nat.le_trans ha.le hb.le, ?_, ?_, ?_⟩
  · rw [List.flatMap_append, ha.defined, hb.defined, Temp.between_append ha.le hb.le]
  · rw [← Temp.between_append ha.le hb.le, List.perm_iff_count]
    intro t
    have hca := List.perm_iff_count.mp ha.used t
    have hcb := List.perm_iff_count.mp hb.used t
    simp only [List.flatMap_append, List.count_append] at hca hcb ⊢
    omega
  · exact definedFirst_append.mpr ⟨ha.first, hb.first.mono (List.nil_subset _)⟩

/-- One more instruction, which uses all that is pending. What it defines is pending then. -/
theorem concat (ha : Linear n m a p) {i : Instr} (hu : i.used.Perm p)
    (hd : i.defined = Temp.between m n') (hle : m ≤ n') :
    Linear n n' (a ++ [i]) i.defined := by
  have hpending : p ⊆ Temp.between n m :=
    fun t ht => ha.used.mem_iff.mp (List.mem_append_right _ ht)
  refine ⟨Nat.le_trans ha.le hle, ?_, ?_, ?_⟩
  · rw [List.flatMap_append, ha.defined, List.flatMap_singleton, hd, Temp.between_append ha.le hle]
  · rw [← Temp.between_append ha.le hle, List.flatMap_append, List.flatMap_singleton, hd]
    exact ((List.Perm.append_left _ hu).trans ha.used).append_right _
  · refine definedFirst_append.mpr ⟨ha.first, fun t ht => ?_, trivial⟩
    rw [List.nil_append, ha.defined]
    exact hpending (hu.mem_iff.mp ht)

/-- Nothing is pending after an instruction that stores into no temporary. -/
theorem close (ha : Linear n m a p) {i : Instr} (hu : i.used.Perm p) (hd : i.defined = []) :
    Linear n m (a ++ [i]) [] := by
  have hself : i.defined = Temp.between m m := by rw [hd, Temp.between_self]
  have h := ha.concat hu hself (Nat.le_refl m)
  rwa [hd] at h

end Linear

/-! ## Terms -/

/-- What loading an operand adds: the constants that are pending are those that it has loaded. -/
theorem ready_linear {v : Value} (hv : v.Formed) (ty : Ty) (n : Nat) :
    ∃ n' loaded, (v.ready ty (n + 1)).2.2 = n' + 1 ∧ Linear n n' (v.ready ty (n + 1)).1 loaded ∧
      (v.ready ty (n + 1)).2.1.mentioned = v.location.mentioned ++ loaded := by
  cases hv with
  | constant text =>
    have hload : Linear n (n + 1) ([] ++ [.store ty (.literal text) (.temp ⟨n + 1⟩)]) [⟨n + 1⟩] :=
      (Linear.nil n).concat (.refl _) (Temp.between_succ n).symm (Nat.le_succ n)
    exact ⟨n + 1, [⟨n + 1⟩], rfl, hload, rfl⟩
  | var v => exact ⟨n, [], rfl, .nil n, rfl⟩
  | computed hcode result hty => exact ⟨n, [], rfl, .nil n, (List.append_nil _).symm⟩

/-- An operation uses up what its operands leave and leaves its own result. -/
theorem applyOp_linear {op : BinOp} {l r v : Value} {n n₁ n₂ n' : Nat} (hfl : l.Formed)
    (hfr : r.Formed)
    (hl : Linear n n₁ l.code l.location.mentioned) (hr : Linear n₁ n₂ r.code r.location.mentioned)
    (h : applyOp op l r n₂ = .ok (v, n')) : Linear n n' v.code v.location.mentioned := by
  obtain ⟨ty, -, -, hn', rfl⟩ := applyOp_ok h
  obtain ⟨k₁, loaded₁, hk₁, hload₁, hm₁⟩ := ready_linear hfl ty n₂
  rw [hk₁] at hn' ⊢
  obtain ⟨k₂, loaded₂, hk₂, hload₂, hm₂⟩ := ready_linear hfr ty k₁
  rw [hk₂] at hn'
  subst hn'
  have hoperands := hl.append (hr.append (hload₁.append hload₂))
  -- The operation uses the left operand before the right one; the code of both comes before the
  -- constants.
  have hused : ((l.ready ty (n₂ + 1)).2.1.mentioned ++ (r.ready ty (k₁ + 1)).2.1.mentioned).Perm
      (l.location.mentioned ++ (r.location.mentioned ++ (loaded₁ ++ loaded₂))) := by
    rw [hm₁, hm₂, List.append_assoc]
    refine List.Perm.append_left _ ?_
    rw [← List.append_assoc, ← List.append_assoc]
    exact List.perm_append_comm.append_right _
  have hcode := hoperands.concat
    (i := .binary op ty (l.ready ty (n₂ + 1)).2.1 (r.ready ty (k₁ + 1)).2.1 ⟨k₂ + 1⟩) hused
    (Temp.between_succ k₂).symm (Nat.le_succ k₂)
  rw [List.append_assoc, List.append_assoc, List.append_assoc] at hcode
  exact hcode

end ThreeAddress

open ThreeAddress

/-- A term leaves over its result, if that is a temporary. -/
theorem Term.lower_linear {t : Term} {n n' : Nat} {v : Value} (h : t.lower n = .ok (v, n')) :
    Linear n n' v.code v.location.mentioned := by
  induction t generalizing n n' v with
  | literal text => cases h; exact .nil n
  | var v => cases h; exact .nil n
  | binary op lhs rhs ihl ihr =>
    obtain ⟨l, n₁, r, n₂, hl, hr, hop⟩ := lower_binary_ok h
    exact applyOp_linear (lower_formed hl) (lower_formed hr) (ihl hl) (ihr hr) hop

/-! ## Statements -/

namespace ThreeAddress

/-- A value without code is in no temporary. -/
theorem Value.Formed.mentioned_of_code {v : Value} (h : v.Formed) (hcode : v.code = []) :
    v.location.mentioned = [] := by
  cases h with
  | var v => rfl
  | constant text => rfl
  | computed hne result hty => exact absurd hcode hne

private theorem storeVia_linear (ty : Ty) {src : Operand} (hsrc : src.mentioned = []) (ident : String)
    (n : Nat) :
    Linear n (storeVia ty src (.var ident) n).2 (storeVia ty src (.var ident) n).1 [] := by
  have hload : Linear n (n + 1) ([] ++ [.store ty src (.temp ⟨n + 1⟩)]) [⟨n + 1⟩] :=
    (Linear.nil n).concat (by rw [Instr.used, hsrc]) (Temp.between_succ n).symm (Nat.le_succ n)
  exact hload.close (i := .store ty (.temp ⟨n + 1⟩) (.var ident)) (.refl _) rfl

/-- Storing a value uses up its temporary. -/
theorem storeValue_linear {v : Value} {target : VarRef} {n m n' : Nat} {instrs : List Instr}
    (hv : v.Formed) (h : Linear n m v.code v.location.mentioned)
    (hstore : storeValue target v m = .ok (instrs, n')) : Linear n n' instrs [] := by
  obtain ⟨ty, -, -, rfl, rfl⟩ | ⟨hcode, ty, -, hvia⟩ := storeValue_ok hstore
  · exact h.close (i := .store ty v.location (.var target.ident)) (.refl _) rfl
  · -- Without code of its own, the value is found in no temporary.
    have hnone := hv.mentioned_of_code hcode
    rw [hcode, hnone] at h
    have hlinear := h.append (storeVia_linear ty hnone target.ident m)
    rwa [hvia] at hlinear

/-- Code without temporaries. -/
theorem linear_of_mentioned {instrs : List Instr} (h : ∀ i ∈ instrs, i.mentioned = []) (n : Nat) :
    Linear n n instrs [] := by
  induction instrs with
  | nil => exact .nil n
  | cons i rest ih =>
    have hi := h i List.mem_cons_self
    rw [Instr.mentioned_eq, List.append_eq_nil_iff] at hi
    have hone : Linear n n ([] ++ [i]) [] := (Linear.nil n).close (by rw [hi.1]) hi.2
    exact hone.append (ih fun j hj => h j (List.mem_cons_of_mem _ hj))

private theorem readVars_mentioned {vars : List VarRef} {instrs : List Instr}
    (h : readVars vars = .ok instrs) : ∀ i ∈ instrs, i.mentioned = [] := by
  induction vars generalizing instrs with
  | nil => cases h; exact fun _ hi => absurd hi List.not_mem_nil
  | cons v rest ih =>
    rw [readVars] at h
    split at h
    · cases h
    · cases hr : readVars rest with
      | error e => rw [hr] at h; cases h
      | ok more =>
        rw [hr] at h
        cases h
        exact List.forall_mem_cons.mpr ⟨rfl, ih hr⟩

/-- A statement uses each of its temporaries and leaves none over. -/
theorem lowerStatement_linear {statement : Statement} {n n' : Nat} {instrs : List Instr}
    (h : lowerStatement statement n = .ok (instrs, n')) : Linear n n' instrs [] := by
  cases statement with
  | assign target value =>
    obtain ⟨v, m, hv, hstore⟩ := lowerStatement_assign_ok h
    exact storeValue_linear (Term.lower_formed hv) (Term.lower_linear hv) hstore
  | stringDecl ident literal => cases h; exact .nil n
  | read vars =>
    obtain ⟨hr, rfl⟩ := lowerStatement_read_ok h
    exact linear_of_mentioned (readVars_mentioned hr) n'
  | write vars =>
    cases h
    refine linear_of_mentioned (fun i hi => ?_) n
    obtain ⟨v, -, rfl⟩ := List.mem_map.mp hi
    rfl

/-- `codes` are the codes of the statements, one by one, lowered with temporaries after the first `n`
and up to `n'`. -/
inductive Lowerings : (n : Nat) → List Statement → List (List Instr) → (n' : Nat) → Prop where
  | nil (n : Nat) : Lowerings n [] [] n
  | cons {n n₁ n' : Nat} {statement : Statement} {rest : List Statement} {first : List Instr}
      {codes : List (List Instr)} (hfirst : lowerStatement statement n = .ok (first, n₁))
      (hrest : Lowerings n₁ rest codes n') : Lowerings n (statement :: rest) (first :: codes) n'

/-- Lowered statements are lowered one by one, the numbers going on. -/
theorem exists_lowerings {statements : List Statement} {n n' : Nat} {instrs : List Instr}
    (h : lowerStatements statements n = .ok (instrs, n')) :
    ∃ codes, Lowerings n statements codes n' ∧ instrs = codes.flatten := by
  induction statements generalizing n instrs with
  | nil =>
    cases h
    exact ⟨[], .nil _, rfl⟩
  | cons statement rest ih =>
    obtain ⟨first, n₁, more, hf, hr, rfl⟩ := lowerStatements_cons h
    obtain ⟨codes, hcodes, rfl⟩ := ih hr
    exact ⟨first :: codes, .cons hf hcodes, rfl⟩

/-- Code of statements uses each of its temporaries and leaves none over. -/
theorem Lowerings.linear {statements : List Statement} {codes : List (List Instr)} {n n' : Nat}
    (h : Lowerings n statements codes n') : Linear n n' codes.flatten [] := by
  induction h with
  | nil => exact .nil _
  | cons hfirst _ ih => exact (lowerStatement_linear hfirst).append ih

/-- The code of one of the statements has both the definition and the use of a temporary. -/
theorem Lowerings.usedLater {statements : List Statement} {codes : List (List Instr)} {n n' : Nat}
    (h : Lowerings n statements codes n') {t : Temp} (ht : t ∈ Temp.between n n') :
    ∃ code ∈ codes, UsedLater t code := by
  induction h with
  | nil =>
    rw [Temp.between_self] at ht
    cases ht
  | cons hfirst hrest ih =>
    have hlinear := lowerStatement_linear hfirst
    rw [← Temp.between_append hlinear.le hrest.linear.le] at ht
    rcases List.mem_append.mp ht with ht | ht
    · have hused := hlinear.used.mem_iff.mpr ht
      rw [List.append_nil] at hused
      exact ⟨_, List.mem_cons_self, hlinear.first.usedLater hused⟩
    · obtain ⟨code, hcode, hlater⟩ := ih ht
      exact ⟨code, List.mem_cons_of_mem _ hcode, hlater⟩

end ThreeAddress

/-! ## The number of temporaries -/

/-- Number of operators. -/
def Term.operators : Term → Nat
  | .literal _ => 0
  | .var _ => 0
  | .binary _ lhs rhs => lhs.operators + rhs.operators + 1

/-- Number of constants. -/
def Term.constants : Term → Nat
  | .literal _ => 1
  | .var _ => 0
  | .binary _ lhs rhs => lhs.constants + rhs.constants

/-- The term is a `FLOAT` variable. -/
def Term.isFloatVar : Term → Bool
  | .var v => v.ty = .float
  | _ => false

/-- Temporaries that assigning a term takes: one for each operator and each constant, and one to copy a
`FLOAT` variable. -/
def Term.temporaries (t : Term) : Nat :=
  t.operators + t.constants + if t.isFloatVar then 1 else 0

/-- Sum of a number over terms. -/
def Term.total (count : Term → Nat) : List Term → Nat
  | [] => 0
  | t :: rest => count t + total count rest

/-- The term that a statement assigns. -/
def Statement.value? : Statement → Option Term
  | .assign _ value => some value
  | _ => none

namespace ThreeAddress

/-- Temporaries that are allocated only where the value is used. -/
def Value.unloaded (v : Value) : Nat :=
  match v.kind with
  | .constant => 1
  | .typed _ => 0

/-- Making a value ready takes a temporary if it is a constant. -/
theorem ready_count (v : Value) (ty : Ty) (dst : Nat) :
    (v.ready ty dst).2.2 = dst + v.unloaded := by
  obtain ⟨code, location, _ | _⟩ := v <;> rfl

end ThreeAddress

/-- A term takes a temporary for each operator and for each constant it has loaded. -/
theorem Term.lower_count {t : Term} {n n' : Nat} {v : Value} (h : t.lower n = .ok (v, n')) :
    n' + v.unloaded = n + t.operators + t.constants := by
  induction t generalizing n n' v with
  | literal text => cases h; rfl
  | var v => cases h; rfl
  | binary op lhs rhs ihl ihr =>
    obtain ⟨l, n₁, r, n₂, hl, hr, hop⟩ := lower_binary_ok h
    obtain ⟨ty, -, -, hn', rfl⟩ := applyOp_ok hop
    rw [ready_count, ready_count] at hn'
    have hcl := ihl hl
    have hcr := ihr hr
    simp only [operators, constants, Value.unloaded, Value.computed]
    omega

namespace ThreeAddress

theorem storeValue_count {target : VarRef} {t : Term} {n m n' : Nat} {v : Value}
    {instrs : List Instr} (h : t.lower n = .ok (v, m))
    (hstore : storeValue target v m = .ok (instrs, n')) : n' = n + t.temporaries := by
  have hcount := Term.lower_count h
  rw [Term.temporaries]
  cases t with
  | literal text =>
    cases h
    cases hstore
    rfl
  | var v =>
    obtain ⟨ident, ty⟩ := v
    cases h
    cases ty <;> (cases hstore; rfl)
  | binary op lhs rhs =>
    obtain ⟨l, n₁, r, n₂, -, -, hop⟩ := Term.lower_binary_ok h
    obtain ⟨ty, -, -, hv⟩ := applyOp_ok hop
    obtain ⟨_, -, -, rfl, -⟩ | ⟨hcode, -⟩ := storeValue_ok hstore
    · rw [hv.2] at hcount
      exact hcount.trans (Nat.add_assoc _ _ _)
    · rw [hv.2] at hcode
      simp [Value.computed] at hcode

/-- Only the value of an assignment takes temporaries. -/
theorem lowerStatement_count {statement : Statement} {n n' : Nat} {instrs : List Instr}
    (h : lowerStatement statement n = .ok (instrs, n')) :
    n' = n + statement.value?.elim 0 Term.temporaries := by
  cases statement with
  | assign target value =>
    obtain ⟨v, m, hv, hstore⟩ := lowerStatement_assign_ok h
    exact storeValue_count hv hstore
  | stringDecl ident literal => cases h; rfl
  | read vars => exact (lowerStatement_read_ok h).2
  | write vars => cases h; rfl

/-- The temporaries of statements are those of their values. -/
theorem Lowerings.count {statements : List Statement} {codes : List (List Instr)} {n n' : Nat}
    (h : Lowerings n statements codes n') :
    n' = n + Term.total Term.temporaries (statements.filterMap Statement.value?) := by
  induction h with
  | nil => rfl
  | @cons n n₁ n' statement rest first codes hfirst _ ih =>
    have hcount := lowerStatement_count hfirst
    rw [ih, hcount, List.filterMap_cons]
    cases statement.value? with
    | none => rfl
    | some value => exact Nat.add_assoc _ _ _

end ThreeAddress

theorem Term.total_temporaries (values : List Term) :
    total temporaries values =
      total operators values + total constants values + values.countP isFloatVar := by
  induction values with
  | nil => rfl
  | cons value rest ih =>
    simp only [total, List.countP_cons, temporaries, ih]
    omega

namespace ThreeAddress

/-- **Lowered code is linear.** It defines the temporaries `1, 2, …` in order, and it uses each of them
as an operand once, after its definition and in the code of the same statement. There is one for each
operator, for each constant, and for each assignment of a mere `FLOAT` variable. -/
theorem Code.ofStatements_linear {statements : List Statement} {code : Code}
    (h : Code.ofStatements statements = .ok code) :
    let temporaries := (List.range' 1 code.temps).map Temp.mk
    let values := statements.filterMap Statement.value?
    code.instrs.flatMap Instr.defined = temporaries ∧
    (code.instrs.flatMap Instr.used).Perm temporaries ∧
    (∃ codes, Lowerings 0 statements codes code.temps ∧
      code.instrs = .label "main" :: .link :: (codes.flatten ++ [.ret]) ∧
      ∀ t ∈ temporaries, ∃ segment ∈ codes, UsedLater t segment) ∧
    code.temps = Term.total Term.operators values + Term.total Term.constants values +
      values.countP Term.isFloatVar := by
  obtain ⟨body, hbody, hinstrs⟩ := Code.ofStatements_ok h
  obtain ⟨codes, hcodes, rfl⟩ := exists_lowerings hbody
  have hlinear := hcodes.linear
  have hdefined : code.instrs.flatMap Instr.defined = codes.flatten.flatMap Instr.defined := by
    simp [hinstrs, Instr.defined]
  have hused : code.instrs.flatMap Instr.used = codes.flatten.flatMap Instr.used := by
    simp [hinstrs, Instr.used]
  refine ⟨?_, ?_, ⟨codes, hcodes, hinstrs, fun t ht => hcodes.usedLater ht⟩, ?_⟩
  · rw [hdefined, hlinear.defined]
    rfl
  · rw [hused, ← List.append_nil (List.flatMap _ _)]
    exact hlinear.used
  · rw [← Term.total_temporaries, hcodes.count, Nat.zero_add]

/-- Constants on both sides of nested operations, a copied `FLOAT` variable and a mere constant: three
operators, three constants and one copy. -/
theorem Code.ofStatements_seven_temporaries :
    let statements : List Statement :=
      [.assign ⟨"x", .float⟩ (.binary .mul (.binary .add (.literal "2") (.var ⟨"a", .int⟩))
          (.binary .sub (.var ⟨"a", .int⟩) (.literal "1.5"))),
        .write [⟨"x", .float⟩], .assign ⟨"y", .float⟩ (.var ⟨"x", .float⟩),
        .assign ⟨"a", .int⟩ (.literal "7")]
    let temporaries : List Temp := [⟨1⟩, ⟨2⟩, ⟨3⟩, ⟨4⟩, ⟨5⟩, ⟨6⟩, ⟨7⟩]
    ∃ code, Code.ofStatements statements = .ok code ∧ code.temps = 3 + 3 + 1 ∧
      code.instrs.flatMap Instr.defined = temporaries ∧
      (code.instrs.flatMap Instr.used).Perm temporaries := by
  intro statements temporaries
  obtain ⟨code, hcode, htemps⟩ : ∃ code, Code.ofStatements statements = .ok code ∧ code.temps = 7 :=
    ⟨_, by cbv, rfl⟩
  obtain ⟨hdefined, hused, -, -⟩ := Code.ofStatements_linear hcode
  rw [htemps] at hdefined hused
  exact ⟨code, hcode, htemps, hdefined, hused⟩

end ThreeAddress

end TinyGen
