import TinyGen.Proofs.Meaning
import TinyGen.Proofs.Registers

/-!
# Selection keeps the meaning of three-address code

`Program.run_ofCode`: the target program of selectable code ends in the world that the code ends in,
and its registers hold what the temporaries hold.

The simulation is over one fixed renaming, the one that selection arrives at (`Program.ofCode_eq`).
An operation becomes a move into the register of its result and an update of that register by the
right operand. The move must not reach the right operand: it is no temporary, or another one than
the result (`Instr.Selectable`), and then it has another register (`Apart`).
-/

namespace TinyGen.Target

open ThreeAddress (Temp Code)

universe u v

variable {V : Type u} {I : Type v} {m : Meaning V I}

/-- Declarations do nothing. -/
theorem run_header (table : ScopeTable) (rest : List Instr) (s : State V I) :
    run m (header table ++ rest) s = run m rest s := by
  unfold header
  induction table.storage with
  | nil => rfl
  | cons symbol symbols ih =>
    obtain ⟨ident, shape⟩ := symbol
    cases shape with
    | num ty => exact ih
    | str literal => exact ih

/-! ## States under a renaming -/

/-- The worlds agree, and the register of each temporary of `ts` holds what the temporary holds. -/
structure Renames (ρ : Temp → Register) (ts : List Temp) (s : ThreeAddress.State V I)
    (s' : State V I) : Prop where
  world : s'.world = s.world
  register : ∀ t ∈ ts, s'.registers (ρ t) = s.temps t

/-- Temporaries of `ts` have registers of their own. -/
def Apart (ρ : Temp → Register) (ts : List Temp) : Prop :=
  ∀ t ∈ ts, ∀ t' ∈ ts, ρ t = ρ t' → t = t'

variable {ρ : Temp → Register} {ts : List Temp} {s : ThreeAddress.State V I} {s' : State V I}

theorem Renames.value (h : Renames ρ ts s s') {o : ThreeAddress.Operand} (ho : o.mentioned ⊆ ts)
    (ty : Ty) : s'.value m (renamed ρ o) = s.value m.typed ty o := by
  cases o with
  | temp t => exact h.register t (ho (List.mem_singleton_self t))
  | var ident => exact congrArg (fun w => w.vars ident) h.world
  | literal text => rfl

theorem Renames.store (h : Renames ρ ts s s') (ha : Apart ρ ts) {dst : ThreeAddress.Operand}
    (hd : dst.mentioned ⊆ ts) (x : V) :
    Renames ρ ts (s.store dst x) (s'.store (renamed ρ dst) x) := by
  cases dst with
  | temp t =>
    refine ⟨h.world, fun t' ht' => ?_⟩
    show (if ρ t' = ρ t then x else s'.registers (ρ t')) = if t' = t then x else s.temps t'
    by_cases he : t' = t
    · rw [he, if_pos rfl, if_pos rfl]
    · have hne : ρ t' ≠ ρ t := fun hρ => he (ha t' ht' t (hd (List.mem_singleton_self t)) hρ)
      rw [if_neg he, if_neg hne]
      exact h.register t' ht'
  | var ident => exact ⟨congrArg (fun w => w.set ident x) h.world, h.register⟩
  | literal text => exact h

theorem State.store_store (s' : State V I) (r : Register) (x y : V) :
    (s'.store (.register r) x).store (.register r) y = s'.store (.register r) y := by
  unfold State.store
  simp only
  congr 1
  funext r'
  split <;> rfl

/-- What the right operand of an operation is after the move into the register of the result. -/
theorem value_store_of_ne (ha : Apart ρ ts) {o : ThreeAddress.Operand} (ho : o.mentioned ⊆ ts)
    {dst : Temp} (hd : dst ∈ ts) (hne : o ≠ .temp dst) (s' : State V I) (x : V) :
    (s'.store (.register (ρ dst)) x).value m (renamed ρ o) = s'.value m (renamed ρ o) := by
  cases o with
  | temp t =>
    have hρ : ρ t ≠ ρ dst := fun hρ =>
      hne (congrArg _ (ha t (ho (List.mem_singleton_self t)) dst hd hρ))
    exact if_neg hρ
  | var ident => rfl
  | literal text => rfl

/-! ## Simulation -/

/-- A move into a register and an update of it store the result of the operation. -/
theorem run_operation (s' : State V I) (op : BinOp) (ty : NumTy) (lhs rhs : Operand) (r : Register)
    (h : (s'.store (.register r) (s'.value m lhs)).value m rhs = s'.value m rhs) :
    run m [.move lhs (.register r), .arith op ty rhs r] s' =
      s'.store (.register r) (m.arith op ty.toTy (s'.value m lhs) (s'.value m rhs)) := by
  have hr : (s'.store (.register r) (s'.value m lhs)).registers r = s'.value m lhs := if_pos rfl
  show (s'.store (.register r) (s'.value m lhs)).store (.register r)
    (m.arith op ty.toTy ((s'.store (.register r) (s'.value m lhs)).registers r)
      ((s'.store (.register r) (s'.value m lhs)).value m rhs)) = _
  rw [hr, h, State.store_store]

/-- One instruction and its image lead to states that agree again. -/
theorem Renames.step (h : Renames ρ ts s s') (ha : Apart ρ ts) {i : ThreeAddress.Instr}
    (hi : i.Selectable) (ht : i.mentioned ⊆ ts) :
    Renames ρ ts (ThreeAddress.step m.typed i s) (run m (image ρ i) s') := by
  cases i with
  | label name => exact h
  | link => exact h
  | ret => exact h
  | store ty src dst =>
    obtain ⟨hsrc, hdst⟩ := List.append_subset.mp ht
    show Renames ρ ts (s.store dst _) (s'.store (renamed ρ dst) (s'.value m (renamed ρ src)))
    rw [h.value hsrc ty]
    exact h.store ha hdst _
  | binary op ty lhs rhs dst =>
    obtain ⟨hl, ht⟩ := List.append_subset.mp ht
    obtain ⟨hr, hd⟩ := List.append_subset.mp ht
    have hdst : dst ∈ ts := hd (List.mem_singleton_self dst)
    -- The left operand is moved to the result first. That must not change the right operand.
    have hrhs := value_store_of_ne (m := m) ha hr hdst hi.2 s'
    have key : ∀ num : NumTy, num.toTy = ty →
        Renames ρ ts (ThreeAddress.step m.typed (.binary op ty lhs rhs dst) s)
          (run m [.move (renamed ρ lhs) (.register (ρ dst)),
            .arith op num (renamed ρ rhs) (ρ dst)] s') := by
      intro num hnum
      rw [run_operation s' op num _ _ _ (hrhs _), h.value hl ty, h.value hr ty, hnum]
      exact h.store ha (show ThreeAddress.Operand.mentioned (.temp dst) ⊆ ts from hd) _
    cases ty with
    | int => exact key .int rfl
    | float => exact key .float rfl
    | string => exact absurd rfl hi.1
  | read ty ident =>
    have key : ∀ num : NumTy, num.toTy = ty →
        Renames ρ ts (ThreeAddress.step m.typed (.read ty ident) s) (run m [.read num ident] s') := by
      intro num hnum
      subst hnum
      exact ⟨congrArg (World.read m.toOperations num.toTy ident) h.world, h.register⟩
    cases ty with
    | int => exact key .int rfl
    | float => exact key .float rfl
    | string => exact absurd rfl hi
  | write ty ident => exact ⟨congrArg (World.write ty ident) h.world, h.register⟩

theorem halt_not_mem_image (ρ : Temp → Register) (i : ThreeAddress.Instr) :
    .halt ∉ image ρ i := by
  cases i with
  | binary op ty lhs rhs dst => cases ty <;> simp [image, Ty.toNum?]
  | read ty ident => cases ty <;> simp [image, Ty.toNum?]
  | _ => simp [image]

/-- A whole run: the code stops at its last instruction at the earliest, and the image does not
stop. -/
theorem Renames.run (ha : Apart ρ ts) {instrs : List ThreeAddress.Instr}
    (hr : .ret ∉ instrs.dropLast) (hi : ∀ i ∈ instrs, i.Selectable)
    (ht : instrs.flatMap ThreeAddress.Instr.mentioned ⊆ ts) (h : Renames ρ ts s s') :
    Renames ρ ts (ThreeAddress.run m.typed instrs s) (run m (instrs.flatMap (image ρ)) s') := by
  induction instrs generalizing s s' with
  | nil => exact h
  | cons i rest ih =>
    rw [List.flatMap_cons] at ht
    obtain ⟨hti, htr⟩ := List.append_subset.mp ht
    have hstep := h.step (m := m) ha (hi i List.mem_cons_self) hti
    rw [List.flatMap_cons, run_append (halt_not_mem_image ρ i)]
    cases rest with
    | nil =>
      -- The last instruction may be a return, which does not change the state either.
      rw [ThreeAddress.run_single]
      exact hstep
    | cons j rest =>
      rw [List.dropLast_cons_cons, List.mem_cons, not_or] at hr
      rw [ThreeAddress.run_cons (Ne.symm hr.1)]
      exact ih hr.2 (fun k hk => hi k (List.mem_cons_of_mem _ hk)) htr hstep

theorem registersOf_apart (code : Code) :
    Apart (registersOf code).rename (code.instrs.flatMap ThreeAddress.Instr.mentioned) := by
  intro t ht t' ht' he
  exact (registersOf_numbered code).rename_inj (Registers.find?_assignAll_of_mem ht _)
    (Registers.find?_assignAll_of_mem ht' _) he

/-- A temporary that has a register is mentioned. -/
theorem mem_of_find?_registersOf {code : Code} {t : Temp} {r : Register}
    (h : (registersOf code).find? t = some r) :
    t ∈ code.instrs.flatMap ThreeAddress.Instr.mentioned := by
  by_cases hm : t ∈ code.instrs.flatMap ThreeAddress.Instr.mentioned
  · exact hm
  · rw [registersOf, Registers.find?_assignAll_of_not_mem hm] at h
    cases h

/-- The states after a whole target program and after its code agree. -/
theorem run_registersOf (m : Meaning V I) (table : ScopeTable) {code : Code} (h : code.Selectable)
    (w : World V I) (x : V) :
    Renames (registersOf code).rename (code.instrs.flatMap ThreeAddress.Instr.mentioned)
      (ThreeAddress.run m.typed code.instrs ⟨w, fun _ => x⟩)
      (run m (header table ++ code.instrs.flatMap (image (registersOf code).rename) ++ [.halt])
        ⟨w, fun _ => x⟩) := by
  rw [run_halt, run_header]
  exact Renames.run (registersOf_apart code) h.ret_last h.each (fun _ ht => ht)
    ⟨rfl, fun _ _ => rfl⟩

/-- **Selection keeps the meaning.** Selectable code has a target program. From any world, with all
temporaries and registers at one value, the program ends in the world that the code ends in. Its
registers are numbered from 1, each renames one temporary, and each holds in the end what that
temporary holds. All code that statements are lowered to is selectable. -/
theorem Program.run_ofCode (m : Meaning V I) (table : ScopeTable) (w : World V I) (x : V) :
    (∀ code : Code, code.Selectable →
      ∃ program body rs, Program.ofCode table code = .ok program ∧
        selectAll .empty code.instrs = .ok (body, rs) ∧
        rs.Numbered ∧ rs.count = program.registers ∧
        (run m program.instrs ⟨w, fun _ => x⟩).world =
          (ThreeAddress.run m.typed code.instrs ⟨w, fun _ => x⟩).world ∧
        ∀ t r, rs.find? t = some r →
          (run m program.instrs ⟨w, fun _ => x⟩).registers r =
            (ThreeAddress.run m.typed code.instrs ⟨w, fun _ => x⟩).temps t) ∧
    ∀ statements code, Code.ofStatements statements = .ok code → code.Selectable := by
  refine ⟨fun code h => ?_, fun statements code => Code.ofStatements_selectable⟩
  have hnum : ∀ i ∈ code.instrs, i.Numeric := fun i hi => (h.each i hi).numeric
  have hrun := run_registersOf m table h w x
  refine ⟨_, _, registersOf code, Program.ofCode_eq table hnum, selectAll_code hnum,
    registersOf_numbered code, rfl, hrun.world, fun t r hr => ?_⟩
  have ht := hrun.register t (mem_of_find?_registersOf hr)
  rwa [Registers.rename, hr] at ht

/-- Code that uses a temporary twice and squares one, over a table with one string. A constant stands
for the length of its text. -/
theorem Program.run_reused_temporary :
    let m : Meaning Int (List Int) :=
      { Operations.integers with constant := fun text => text.length }
    let table : ScopeTable := ⟨[(.global, [⟨"greeting", .str "hello"⟩])]⟩
    let code : Code :=
      ⟨[.read .int "a", .store .int (.literal "12345") (.temp ⟨5⟩),
        .binary .add .int (.temp ⟨5⟩) (.var "a") ⟨2⟩, .binary .mul .int (.temp ⟨2⟩) (.temp ⟨2⟩) ⟨5⟩,
        .store .int (.temp ⟨5⟩) (.var "x"), .write .int "x", .ret], 2⟩
    let start : World Int (List Int) := ⟨fun _ => 0, [4], []⟩
    code.Selectable ∧ ∃ program, Program.ofCode table code = .ok program ∧ program.registers = 2 ∧
      (run m program.instrs ⟨start, fun _ => 0⟩).world =
        (ThreeAddress.run m.typed code.instrs ⟨start, fun _ => 0⟩).world ∧
      (run m program.instrs ⟨start, fun _ => 0⟩).world.output = [(.int, 81)] := by
  intro m table code start
  have hc : code.Selectable := by
    refine ⟨by decide, fun i hi => ?_⟩
    simp only [code, List.mem_cons, List.not_mem_nil, or_false] at hi
    rcases hi with rfl | rfl | rfl | rfl | rfl | rfl | rfl <;> simp [ThreeAddress.Instr.Selectable]
  obtain ⟨program, body, rs, hp, -, -, -, hw, -⟩ :=
    (Program.run_ofCode m table start 0).1 code hc
  refine ⟨hc, program, hp, ?_, hw, ?_⟩
  · cases hp
    rfl
  · rw [hw]
    decide

end TinyGen.Target
