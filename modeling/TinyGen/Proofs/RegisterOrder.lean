import Mathlib.Data.Set.Function
import TinyGen.Proofs.Temporaries

/-!
# Registers are numbered by first occurrence

Selection takes the number of a new register from how many there are already. What comes out is one
renaming for the whole code: the temporaries in the order in which they first occur
(`Code.temporaries`) have the registers `1, 2, …` (`Code.register`).

`Program.ofCode_renaming`: this is a bijection, and the target code is the image of the code under it.
In lowered code a temporary first occurs where it is defined, so the renaming is the identity there.
-/

namespace TinyGen

namespace ThreeAddress

/-- The temporaries of code, in the order in which they first occur. In an instruction, the source is
before the destination; the left operand, then the right one, then the result. -/
def Code.temporaries (code : Code) : List Temp :=
  (code.instrs.flatMap Instr.mentioned).eraseDups

/-- The register of a temporary: its place among the temporaries of the code. -/
def Code.register (code : Code) (t : Temp) : Target.Register :=
  ⟨code.temporaries.idxOf t + 1⟩

/-- Only a value that is new counts at the end. -/
private theorem eraseDups_concat (ts : List Temp) (t : Temp) :
    (ts ++ [t]).eraseDups = if t ∈ ts then ts.eraseDups else ts.eraseDups ++ [t] := by
  rw [List.eraseDups_append]
  split
  case isTrue h => simp [List.removeAll, h]
  case isFalse h => simp [List.removeAll, h, List.eraseDups_cons]

end ThreeAddress

namespace Target

open ThreeAddress (Temp Code)

namespace Registers

variable {ts : List Temp} {rs : Registers}

/-- The registers of temporaries that were assigned in the order of a list. -/
structure InOrder (ts : List Temp) (rs : Registers) : Prop where
  nodup : ts.eraseDups.Nodup
  count : rs.count = ts.eraseDups.length
  find : ∀ t, rs.find? t = if t ∈ ts then some ⟨ts.eraseDups.idxOf t + 1⟩ else none

theorem InOrder.empty : InOrder [] empty :=
  ⟨.nil, rfl, fun _ => rfl⟩

/-- A temporary that is new gets the next register. -/
theorem InOrder.assign (h : InOrder ts rs) (t : Temp) : InOrder (ts ++ [t]) (rs.assign t).2 := by
  by_cases ht : t ∈ ts
  · -- The temporary has its register already.
    have hfind := h.find t
    rw [if_pos ht] at hfind
    have hmem : ∀ t', t' ∈ ts ++ [t] ↔ t' ∈ ts := by grind
    have herase : (ts ++ [t]).eraseDups = ts.eraseDups := by
      rw [ThreeAddress.eraseDups_concat, if_pos ht]
    rw [assign_of_some hfind]
    refine ⟨?_, ?_, fun t' => ?_⟩
    · rw [herase]
      exact h.nodup
    · rw [herase]
      exact h.count
    · rw [herase, h.find t']
      simp only [hmem]
  · have hfind := h.find t
    rw [if_neg ht] at hfind
    have hnew : t ∉ ts.eraseDups := fun hm => ht (List.mem_eraseDups.mp hm)
    have herase : (ts ++ [t]).eraseDups = ts.eraseDups ++ [t] := by
      rw [ThreeAddress.eraseDups_concat, if_neg ht]
    refine ⟨?_, ?_, fun t' => ?_⟩
    · rw [herase]
      refine List.nodup_append.mpr ⟨h.nodup, List.nodup_cons.mpr ⟨List.not_mem_nil, .nil⟩, ?_⟩
      rintro t' ht' _ hs rfl
      exact hnew (List.mem_singleton.mp hs ▸ ht')
    · rw [assign_of_none hfind, herase, h.count, List.length_append]
      rfl
    · rw [find?_assign, assign_of_none hfind, herase, h.find t', h.count, List.idxOf_append]
      by_cases he : t' = t
      · subst he
        simp [hnew]
      · have hmem : t' ∈ ts ++ [t] ↔ t' ∈ ts := by simp [he]
        rw [if_neg he]
        simp only [hmem]
        split
        case isTrue hin => rw [if_pos (List.mem_eraseDups.mpr hin)]
        case isFalse => rfl

theorem InOrder.assignAll (h : InOrder ts rs) (ts' : List Temp) :
    InOrder (ts ++ ts') (rs.assignAll ts') := by
  induction ts' generalizing ts rs with
  | nil =>
    rw [List.append_nil]
    exact h
  | cons t rest ih =>
    have h' := ih (h.assign t)
    rw [List.append_assoc] at h'
    exact h'

end Registers

/-- Registers are given in the order in which code first mentions its temporaries. -/
theorem registersOf_inOrder (code : Code) :
    (registersOf code).InOrder (code.instrs.flatMap ThreeAddress.Instr.mentioned) :=
  Registers.InOrder.empty.assignAll _

/-- Only temporaries of the code have registers. -/
theorem find?_registersOf {code : Code} {t : Temp} :
    (registersOf code).find? t = if t ∈ code.temporaries then some (code.register t) else none := by
  rw [(registersOf_inOrder code).find t]
  simp only [Code.temporaries, List.mem_eraseDups]
  rfl

theorem count_registersOf (code : Code) : (registersOf code).count = code.temporaries.length :=
  (registersOf_inOrder code).count

/-- The registers of the temporaries of code are `1, 2, …`, in order. -/
theorem map_register (code : Code) :
    code.temporaries.map code.register = (List.range' 1 code.temporaries.length).map Register.mk := by
  refine List.ext_getElem (by simp) fun i hi hi' => ?_
  have hnodup : code.temporaries.Nodup := (registersOf_inOrder code).nodup
  rw [List.length_map] at hi
  rw [List.getElem_map, List.getElem_map, List.getElem_range', Code.register,
    hnodup.idxOf_getElem i hi]
  congr 1
  omega

/-- Registers are one to one, without a gap. -/
theorem bijOn_register (code : Code) :
    Set.BijOn code.register {t | t ∈ code.temporaries}
      {r | 1 ≤ r.number ∧ r.number ≤ code.temporaries.length} := by
  have hnumbered := registersOf_numbered code
  have hfind : ∀ t ∈ code.temporaries, (registersOf code).find? t = some (code.register t) := by
    intro t ht
    rw [find?_registersOf, if_pos ht]
  refine ⟨fun t ht => ?_, fun t ht t' ht' he => ?_, fun r hr => ?_⟩
  · rw [← count_registersOf]
    exact hnumbered.range t _ (hfind t ht)
  · exact hnumbered.injective t t' _ (hfind t ht) (he ▸ hfind t' ht')
  · rw [← count_registersOf] at hr
    obtain ⟨t, ht⟩ := hnumbered.surjective r.number hr.1 hr.2
    rw [find?_registersOf] at ht
    split at ht
    case isTrue hm => exact ⟨t, hm, Option.some.inj ht⟩
    case isFalse => cases ht

/-! ## The image of the code -/

theorem renamed_congr {ρ ρ' : Temp → Register} {o : ThreeAddress.Operand}
    (h : ∀ t ∈ o.mentioned, ρ t = ρ' t) : renamed ρ o = renamed ρ' o := by
  cases o with
  | temp t => rw [renamed, renamed, h t (List.mem_singleton_self t)]
  | var ident => rfl
  | literal text => rfl

/-- Only the temporaries of an instruction count for its selection. -/
theorem image_congr {ρ ρ' : Temp → Register} {i : ThreeAddress.Instr}
    (h : ∀ t ∈ i.mentioned, ρ t = ρ' t) : image ρ i = image ρ' i := by
  cases i with
  | store ty src dst =>
    obtain ⟨hsrc, hdst⟩ := List.forall_mem_append.mp h
    rw [image, image, renamed_congr hsrc, renamed_congr hdst]
  | binary op ty lhs rhs dst =>
    obtain ⟨hlhs, h⟩ := List.forall_mem_append.mp h
    obtain ⟨hrhs, hdst⟩ := List.forall_mem_append.mp h
    rw [image, image, renamed_congr hlhs, renamed_congr hrhs, hdst dst (List.mem_singleton_self dst)]
  | _ => rfl

/-- A program is its code under any renaming that gives the registers of its temporaries. -/
theorem Program.ofCode_image (table : ScopeTable) {code : Code} {ρ : Temp → Register}
    (hnumeric : ∀ i ∈ code.instrs, i.Numeric) (hρ : ∀ t ∈ code.temporaries, ρ t = code.register t) :
    Program.ofCode table code =
      .ok ⟨header table ++ code.instrs.flatMap (image ρ) ++ [.halt], code.temporaries.length⟩ := by
  have himage : code.instrs.flatMap (image (registersOf code).rename) =
      code.instrs.flatMap (image ρ) := by
    rw [List.flatMap_def, List.flatMap_def]
    refine congrArg _ (List.map_congr_left fun i hi => image_congr fun t ht => ?_)
    have hmem : t ∈ code.temporaries :=
      List.mem_eraseDups.mpr (List.mem_flatMap.mpr ⟨i, hi, ht⟩)
    rw [Registers.rename, find?_registersOf, if_pos hmem, hρ t hmem]
    rfl
  rw [Program.ofCode_eq table hnumeric, himage, count_registersOf]

end Target

/-! ## Lowered code -/

namespace ThreeAddress

private theorem Instr.eraseDups_defined (i : Instr) : i.defined.eraseDups = i.defined := by
  have hone : ∀ t : Temp, [t].eraseDups = [t] := fun t => by simp [List.eraseDups_cons]
  cases i with
  | store ty src dst =>
    cases dst with
    | temp t => exact hone t
    | _ => rfl
  | binary op ty lhs rhs dst => exact hone dst
  | _ => rfl

/-- Temporaries that are defined before they are used first occur in the order of their
definitions. -/
theorem DefinedFirst.eraseDups_mentioned {known : List Temp} {instrs : List Instr}
    (h : DefinedFirst known instrs) (hnodup : (known ++ instrs.flatMap Instr.defined).Nodup) :
    ((instrs.flatMap Instr.mentioned).removeAll known).eraseDups =
      instrs.flatMap Instr.defined := by
  induction instrs generalizing known with
  | nil => rfl
  | cons i rest ih =>
    obtain ⟨hused, hrest⟩ := h
    have hold : i.used.removeAll known = [] := by
      simpa [List.removeAll] using fun t ht => hused ht
    have hnew : i.defined.removeAll known = i.defined := by
      refine List.filter_eq_self.mpr fun t ht => ?_
      have hdisjoint := (List.nodup_append.mp hnodup).2.2
      have : t ∉ known := fun hk =>
        hdisjoint t hk t (List.mem_flatMap.mpr ⟨i, List.mem_cons_self, ht⟩) rfl
      simpa using this
    -- What the instruction defines is known to the rest.
    have hlater : ((rest.flatMap Instr.mentioned).removeAll known).removeAll i.defined =
        (rest.flatMap Instr.mentioned).removeAll (known ++ i.defined) := by
      simp [List.removeAll, List.filter_filter, Bool.and_comm]
    have hsplit : ((i :: rest).flatMap Instr.mentioned).removeAll known =
        i.defined ++ (rest.flatMap Instr.mentioned).removeAll known := by
      rw [List.flatMap_cons, Instr.mentioned_eq]
      show List.filter _ _ = _
      rw [List.filter_append, List.filter_append]
      show i.used.removeAll known ++ i.defined.removeAll known ++ _ = _
      rw [hold, hnew]
      rfl
    rw [List.flatMap_cons, ← List.append_assoc] at hnodup
    rw [hsplit, List.eraseDups_append, hlater, Instr.eraseDups_defined, ih hrest hnodup,
      List.flatMap_cons]

/-- Lowered code first mentions its temporaries in the order of their numbers. -/
theorem Code.temporaries_ofStatements {statements : List Statement} {code : Code}
    (h : Code.ofStatements statements = .ok code) :
    code.temporaries = (List.range' 1 code.temps).map Temp.mk := by
  obtain ⟨body, hbody, hinstrs⟩ := Code.ofStatements_ok h
  obtain ⟨codes, hcodes, rfl⟩ := exists_lowerings hbody
  have hlinear := hcodes.linear
  have hmentioned : code.instrs.flatMap Instr.mentioned = codes.flatten.flatMap Instr.mentioned := by
    simp [hinstrs, Instr.mentioned]
  have hnodup : ([] ++ codes.flatten.flatMap Instr.defined).Nodup := by
    rw [List.nil_append, hlinear.defined]
    exact Temp.nodup_between 0 code.temps
  have hfirst := hlinear.first.eraseDups_mentioned hnodup
  have hnone : (codes.flatten.flatMap Instr.mentioned).removeAll [] =
      codes.flatten.flatMap Instr.mentioned := List.filter_eq_self.mpr fun _ _ => rfl
  rw [hnone, hlinear.defined] at hfirst
  rw [Code.temporaries, hmentioned, hfirst]
  rfl

/-- In lowered code each temporary gets the register of its own number. -/
theorem Code.register_ofStatements {statements : List Statement} {code : Code}
    (h : Code.ofStatements statements = .ok code) :
    ∀ t ∈ code.temporaries, code.register t = ⟨t.number⟩ := by
  have htemporaries := Code.temporaries_ofStatements h
  have hmap := Target.map_register code
  rw [htemporaries, List.length_map, List.length_range', List.map_map] at hmap
  rw [htemporaries]
  intro t ht
  obtain ⟨k, hk, rfl⟩ := List.mem_map.mp ht
  exact List.map_inj_left.mp hmap k hk

end ThreeAddress

namespace Target

open ThreeAddress (Code)

/-- **Selection renames temporaries by one bijection.** The temporaries of code that operates on no
strings become the registers `1, 2, …` in the order in which they first occur, and each instruction
becomes its image. For lowered code the temporary `n` becomes the register `n`. -/
theorem Program.ofCode_renaming (table : ScopeTable) :
    (∀ code : Code, (∀ i ∈ code.instrs, i.Numeric) →
      Program.ofCode table code = .ok
        ⟨header table ++ code.instrs.flatMap (image code.register) ++ [.halt],
          code.temporaries.length⟩ ∧
      Set.BijOn code.register {t | t ∈ code.temporaries}
        {r | 1 ≤ r.number ∧ r.number ≤ code.temporaries.length} ∧
      code.temporaries.map code.register =
        (List.range' 1 code.temporaries.length).map Register.mk) ∧
    ∀ statements code, Code.ofStatements statements = .ok code →
      (∀ t ∈ code.temporaries, code.register t = ⟨t.number⟩) ∧
      Program.ofCode table code = .ok
        ⟨header table ++ code.instrs.flatMap (image fun t => ⟨t.number⟩) ++ [.halt],
          code.temps⟩ := by
  refine ⟨fun code hnumeric => ⟨?_, bijOn_register code, map_register code⟩,
    fun statements code h => ?_⟩
  · exact Program.ofCode_image table hnumeric fun _ _ => rfl
  · have hnumeric : ∀ i ∈ code.instrs, i.Numeric :=
      fun i hi => ((Code.ofStatements_selectable h).each i hi).numeric
    have hidentity := Code.register_ofStatements h
    have hlength : code.temporaries.length = code.temps := by
      rw [Code.temporaries_ofStatements h, List.length_map, List.length_range']
    refine ⟨hidentity, ?_⟩
    rw [Program.ofCode_image table hnumeric fun t ht => (hidentity t ht).symm, hlength]

/-- Code whose temporaries come in another order than that of their numbers, one of them in two
roles, and code of a statement with two constants. -/
theorem Program.ofCode_renaming_out_of_order :
    let code : Code :=
      ⟨[.store .int (.literal "5") (.temp ⟨7⟩), .binary .sub .int (.temp ⟨9⟩) (.temp ⟨7⟩) ⟨2⟩,
        .store .int (.temp ⟨2⟩) (.temp ⟨9⟩), .write .int "a"], 40⟩
    let statements : List Statement :=
      [.assign ⟨"a", .int⟩ (.binary .div (.literal "6") (.literal "3"))]
    (∀ i ∈ code.instrs, i.Numeric) ∧
    Program.ofCode .empty code = .ok
      ⟨[.move (.immediate "5") (.register ⟨1⟩), .move (.register ⟨2⟩) (.register ⟨3⟩),
        .arith .sub .int (.register ⟨1⟩) ⟨3⟩, .move (.register ⟨3⟩) (.register ⟨2⟩),
        .write .int "a", .halt], 3⟩ ∧
    Set.BijOn code.register {t | t ∈ code.temporaries} {r | 1 ≤ r.number ∧ r.number ≤ 3} ∧
    ∃ lowered, Code.ofStatements statements = .ok lowered ∧ lowered.temps = 3 ∧
      ∀ t ∈ lowered.temporaries, lowered.register t = ⟨t.number⟩ := by
  intro code statements
  have hnumeric : ∀ i ∈ code.instrs, i.Numeric := by
    simp [code, ThreeAddress.Instr.Numeric]
  obtain ⟨hcode, hlowered⟩ := Program.ofCode_renaming .empty
  obtain ⟨hof, hbij, -⟩ := hcode code hnumeric
  obtain ⟨lowered, h, htemps⟩ :
      ∃ lowered, Code.ofStatements statements = .ok lowered ∧ lowered.temps = 3 := ⟨_, by cbv, rfl⟩
  exact ⟨hnumeric, hof, hbij, lowered, h, htemps, (hlowered statements lowered h).1⟩

end Target

end TinyGen
