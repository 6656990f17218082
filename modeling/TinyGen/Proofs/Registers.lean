import TinyGen.Proofs.Lowering
import TinyGen.Target.Selection

/-!
# Registers of temporaries

Selection gives registers to temporaries as it meets them. Here the result is said without the order
of the work: the temporaries that code mentions are assigned in the order in which they are mentioned
(`Registers.assignAll`), and the target instructions are the image of the code under the renaming
that comes out at the end (`selectAll_eq`, `Program.ofCode_eq`).

`Registers.Numbered` is what every assignment of registers satisfies: no two temporaries share a
register, and the registers are numbered from 1 to their count.
-/

namespace TinyGen

namespace ThreeAddress

/-- The temporary of an operand. -/
def Operand.mentioned : Operand → List Temp
  | .temp t => [t]
  | .var _ => []
  | .literal _ => []

/-- The temporaries of an instruction: those it reads from before the one it stores into. -/
def Instr.mentioned : Instr → List Temp
  | .store _ src dst => src.mentioned ++ dst.mentioned
  | .binary _ _ lhs rhs dst => lhs.mentioned ++ (rhs.mentioned ++ [dst])
  | _ => []

/-- The instruction neither operates nor reads at type `STRING`. -/
def Instr.Numeric : Instr → Prop
  | .binary _ ty _ _ _ => ty ≠ .string
  | .read ty _ => ty ≠ .string
  | _ => True

theorem Instr.Selectable.numeric {i : Instr} (h : i.Selectable) : i.Numeric := by
  cases i with
  | binary op ty lhs rhs dst => exact h.1
  | read ty ident => exact h
  | _ => trivial

end ThreeAddress

namespace Target

open ThreeAddress (Temp Code)

namespace Registers

variable {rs rs' : Registers} {t t' : Temp} {r : Register}

/-- The register of a temporary, if it has one. -/
def find? (rs : Registers) (t : Temp) : Option Register :=
  rs.assigned.lookup t

/-- The register of a temporary that has one. -/
def rename (rs : Registers) (t : Temp) : Register :=
  (rs.find? t).getD ⟨0⟩

/-- Gives registers to the temporaries of a list that have none, in order. -/
def assignAll (rs : Registers) (ts : List Temp) : Registers :=
  ts.foldl (fun rs t => (rs.assign t).2) rs

/-! ## Assigning -/

theorem assign_of_some (h : rs.find? t = some r) : rs.assign t = (r, rs) := by
  unfold find? at h
  unfold assign
  rw [h]

theorem assign_of_none (h : rs.find? t = none) :
    rs.assign t = (⟨rs.count + 1⟩, ⟨(t, ⟨rs.count + 1⟩) :: rs.assigned, rs.count + 1⟩) := by
  unfold find? at h
  unfold assign
  rw [h]

/-- After an assignment the temporary has the register that was given, and the others have what
they had. -/
theorem find?_assign (rs : Registers) (t t' : Temp) :
    (rs.assign t).2.find? t' = if t' = t then some (rs.assign t).1 else rs.find? t' := by
  cases h : rs.find? t with
  | some r =>
    rw [assign_of_some h]
    split
    · rename_i he
      rw [he]
      exact h
    · rfl
  | none =>
    rw [assign_of_none h]
    by_cases he : t' = t
    · simp [find?, he]
    · simp [find?, List.lookup_cons, he, beq_eq_false_iff_ne.mpr he]

/-- A temporary has a register once it has been given one. -/
theorem find?_assign_self (rs : Registers) (t : Temp) :
    (rs.assign t).2.find? t = some (rs.assign t).1 := by
  rw [find?_assign, if_pos rfl]

/-- `rs'` has the registers of `rs`, and possibly more. -/
def Extends (rs rs' : Registers) : Prop :=
  ∀ t r, rs.find? t = some r → rs'.find? t = some r

theorem Extends.refl (rs : Registers) : Extends rs rs :=
  fun _ _ h => h

theorem Extends.trans {rs'' : Registers} (h : Extends rs rs') (h' : Extends rs' rs'') :
    Extends rs rs'' :=
  fun t r ht => h' t r (h t r ht)

/-- No temporary loses its register. -/
theorem extends_assign (rs : Registers) (t : Temp) : Extends rs (rs.assign t).2 := by
  intro t' r h
  rw [find?_assign]
  split
  · rename_i he
    rw [he] at h
    rw [assign_of_some h]
  · exact h

theorem extends_assignAll (rs : Registers) (ts : List Temp) : Extends rs (rs.assignAll ts) := by
  induction ts generalizing rs with
  | nil => exact .refl rs
  | cons t ts ih => exact (extends_assign rs t).trans (ih _)

theorem assignAll_append (rs : Registers) (ts ts' : List Temp) :
    rs.assignAll (ts ++ ts') = (rs.assignAll ts).assignAll ts' :=
  List.foldl_append

/-- An assigned register is the one of every later renaming. -/
theorem rename_of_extends (h : Extends (rs.assign t).2 rs') : rs'.rename t = (rs.assign t).1 := by
  rw [rename, h t _ (find?_assign_self rs t)]
  rfl

/-- Temporaries in a list all get registers. -/
theorem find?_assignAll_of_mem {ts : List Temp} (h : t ∈ ts) (rs : Registers) :
    (rs.assignAll ts).find? t = some ((rs.assignAll ts).rename t) := by
  induction ts generalizing rs with
  | nil => cases h
  | cons t' ts ih =>
    rcases List.mem_cons.mp h with rfl | h
    · have hf := extends_assignAll (rs.assign t).2 ts t _ (find?_assign_self rs t)
      show ((rs.assign t).2.assignAll ts).find? t = some (((rs.assign t).2.assignAll ts).rename t)
      rw [rename, hf]
      rfl
    · exact ih h _

/-- Temporaries outside of a list get none by it. -/
theorem find?_assignAll_of_not_mem {ts : List Temp} (h : t ∉ ts) (rs : Registers) :
    (rs.assignAll ts).find? t = rs.find? t := by
  induction ts generalizing rs with
  | nil => rfl
  | cons t' ts ih =>
    rw [List.mem_cons, not_or] at h
    show ((rs.assign t').2.assignAll ts).find? t = rs.find? t
    rw [ih h.2, find?_assign, if_neg h.1]

/-! ## Numbering -/

/-- The registers are numbered from 1 to their count, and each renames one temporary. -/
structure Numbered (rs : Registers) : Prop where
  range : ∀ t r, rs.find? t = some r → 1 ≤ r.number ∧ r.number ≤ rs.count
  injective : ∀ t t' r, rs.find? t = some r → rs.find? t' = some r → t = t'
  surjective : ∀ n, 1 ≤ n → n ≤ rs.count → ∃ t, rs.find? t = some ⟨n⟩

theorem Numbered.empty : Numbered empty := by
  refine ⟨fun t r h => ?_, fun t t' r h => ?_, fun n h h' => ?_⟩
  · cases h
  · cases h
  · exact absurd h' (Nat.not_le_of_lt h)

/-- A new register has the next number. -/
theorem Numbered.assign (h : Numbered rs) (t : Temp) : Numbered (rs.assign t).2 := by
  cases hf : rs.find? t with
  | some r => rw [assign_of_some hf]; exact h
  | none =>
    -- The new register is above all others, so no other temporary has it.
    have hnew : ∀ t' r, (rs.assign t).2.find? t' = some r →
        (t' = t ∧ r.number = rs.count + 1) ∨ (rs.find? t' = some r ∧ r.number ≤ rs.count) := by
      intro t' r hr
      rw [find?_assign] at hr
      split at hr
      · rename_i he
        rw [assign_of_none hf] at hr
        cases hr
        exact .inl ⟨he, rfl⟩
      · exact .inr ⟨hr, (h.range t' r hr).2⟩
    have hcount : (rs.assign t).2.count = rs.count + 1 := by rw [assign_of_none hf]
    refine ⟨fun t' r hr => ?_, fun t₁ t₂ r h₁ h₂ => ?_, fun n h₁ hn => ?_⟩
    · rw [hcount]
      rcases hnew t' r hr with ⟨-, hr⟩ | ⟨hr, -⟩
      · omega
      · have := h.range t' r hr
        omega
    · rcases hnew t₁ r h₁ with ⟨he₁, hr₁⟩ | ⟨hr₁, hle₁⟩
      · rcases hnew t₂ r h₂ with ⟨he₂, -⟩ | ⟨-, hle₂⟩
        · rw [he₁, he₂]
        · omega
      · rcases hnew t₂ r h₂ with ⟨-, hr₂⟩ | ⟨hr₂, -⟩
        · omega
        · exact h.injective t₁ t₂ r hr₁ hr₂
    · rw [hcount] at hn
      by_cases hlast : n = rs.count + 1
      · refine ⟨t, ?_⟩
        rw [find?_assign_self, assign_of_none hf, hlast]
      · obtain ⟨t', ht'⟩ := h.surjective n h₁ (by omega)
        exact ⟨t', extends_assign rs t t' _ ht'⟩

theorem Numbered.assignAll (h : Numbered rs) (ts : List Temp) : Numbered (rs.assignAll ts) := by
  induction ts generalizing rs with
  | nil => exact h
  | cons t ts ih => exact ih (h.assign t)

/-- A renaming keeps temporaries that have registers apart. -/
theorem Numbered.rename_inj (h : Numbered rs) (ht : rs.find? t = some (rs.rename t))
    (ht' : rs.find? t' = some (rs.rename t')) (he : rs.rename t = rs.rename t') : t = t' := by
  rw [he] at ht
  exact h.injective t t' _ ht ht'

end Registers

/-! ## Code under a renaming -/

/-- The target operand of an operand under a renaming. -/
def renamed (ρ : Temp → Register) : ThreeAddress.Operand → Operand
  | .temp t => .register (ρ t)
  | .var ident => .var ident
  | .literal text => .immediate text

/-- The target instructions of an instruction under a renaming. -/
def image (ρ : Temp → Register) : ThreeAddress.Instr → List Instr
  | .label _ => []
  | .link => []
  | .ret => []
  | .store _ src dst => [.move (renamed ρ src) (renamed ρ dst)]
  | .binary op ty lhs rhs dst =>
    match ty.toNum? with
    | none => []
    | some ty => [.move (renamed ρ lhs) (.register (ρ dst)), .arith op ty (renamed ρ rhs) (ρ dst)]
  | .read ty ident =>
    match ty.toNum? with
    | none => []
    | some ty => [.read ty ident]
  | .write ty ident => [.write ty ident]

variable {rs rs' : Registers}

/-- An operand is renamed as all later registers rename it. -/
theorem operand_eq {o : ThreeAddress.Operand}
    (h : Registers.Extends (rs.assignAll o.mentioned) rs') :
    rs.operand o = (renamed rs'.rename o, rs.assignAll o.mentioned) := by
  cases o with
  | temp t =>
    rw [renamed, Registers.rename_of_extends h]
    rfl
  | var ident => rfl
  | literal text => rfl

/-- One step of selection: the instruction is renamed as every later assignment renames it, and its
temporaries are assigned in order. -/
theorem select_eq {i : ThreeAddress.Instr} (hi : i.Numeric)
    (h : Registers.Extends (rs.assignAll i.mentioned) rs') :
    select rs i = .ok (image rs'.rename i, rs.assignAll i.mentioned) := by
  cases i with
  | store ty src dst =>
    rw [ThreeAddress.Instr.mentioned, Registers.assignAll_append] at h
    rw [ThreeAddress.Instr.mentioned, Registers.assignAll_append, select,
      operand_eq ((Registers.extends_assignAll _ _).trans h)]
    simp only [operand_eq h]
    rfl
  | binary op ty lhs rhs dst =>
    rw [ThreeAddress.Instr.mentioned, Registers.assignAll_append, Registers.assignAll_append] at h
    rw [ThreeAddress.Instr.mentioned, Registers.assignAll_append, Registers.assignAll_append]
    have hr : Registers.Extends ((rs.assignAll lhs.mentioned).assignAll rhs.mentioned) rs' :=
      (Registers.extends_assignAll _ _).trans h
    have hl : Registers.Extends (rs.assignAll lhs.mentioned) rs' :=
      (Registers.extends_assignAll _ _).trans hr
    have hd := Registers.rename_of_extends h
    obtain ⟨num, hnum⟩ : ∃ num, ty.toNum? = some num := by
      cases ty with
      | int => exact ⟨.int, rfl⟩
      | float => exact ⟨.float, rfl⟩
      | string => exact absurd rfl hi
    simp only [select, image, operand_eq hl, operand_eq hr, hnum, hd]
    rfl
  | read ty ident =>
    cases ty with
    | int => rfl
    | float => rfl
    | string => exact absurd rfl hi
  | _ => rfl

/-- **Selection is renaming.** The target instructions are the image of the code under the registers
that its temporaries have in the end, assigned in the order in which they are mentioned. -/
theorem selectAll_eq {instrs : List ThreeAddress.Instr} (hi : ∀ i ∈ instrs, i.Numeric)
    (h : Registers.Extends (rs.assignAll (instrs.flatMap ThreeAddress.Instr.mentioned)) rs') :
    selectAll rs instrs =
      .ok (instrs.flatMap (image rs'.rename),
        rs.assignAll (instrs.flatMap ThreeAddress.Instr.mentioned)) := by
  induction instrs generalizing rs with
  | nil => rfl
  | cons i rest ih =>
    rw [List.flatMap_cons, Registers.assignAll_append] at h
    have hs := select_eq (hi i List.mem_cons_self) ((Registers.extends_assignAll _ _).trans h)
    have hr := ih (fun j hj => hi j (List.mem_cons_of_mem _ hj)) h
    rw [List.flatMap_cons, List.flatMap_cons, Registers.assignAll_append, selectAll, hs]
    simp only [bind, Except.bind, hr]
    rfl

/-- The registers of the temporaries that code mentions. -/
def registersOf (code : Code) : Registers :=
  Registers.empty.assignAll (code.instrs.flatMap ThreeAddress.Instr.mentioned)

/-- The registers of code are numbered from one, each given once. -/
theorem registersOf_numbered (code : Code) : (registersOf code).Numbered :=
  Registers.Numbered.empty.assignAll _

/-- Selection renames the temporaries of code by their registers, instruction by instruction. -/
theorem selectAll_code {code : Code} (h : ∀ i ∈ code.instrs, i.Numeric) :
    selectAll .empty code.instrs =
      .ok (code.instrs.flatMap (image (registersOf code).rename), registersOf code) :=
  selectAll_eq h (.refl _)

/-- A program is a header, the selected code and a halt. -/
theorem Program.ofCode_eq (table : ScopeTable) {code : Code} (h : ∀ i ∈ code.instrs, i.Numeric) :
    Program.ofCode table code =
      .ok ⟨header table ++ code.instrs.flatMap (image (registersOf code).rename) ++ [.halt],
        (registersOf code).count⟩ := by
  rw [Program.ofCode, selectAll_code h]
  rfl

end Target

end TinyGen
