import TinyGen.Proofs.Bodies
import TinyGen.Proofs.ScopeStack

/-!
# Well-bracketed calls

The calls on the open scopes come in brackets: a program, a procedure or a block is closed by
`exitScope`, an `if` by `exitIf`, and an `if` may be continued once by `enterElse`
(`WellBracketed`). At a point between the calls some brackets are open; `Unclosed` lists the scopes
that they stand for, without looking at the stack.

* `WellBracketed.run_eq`: a bracket gives back the stack that it was opened on, up to the numbers of
  its blocks. It does so on every stack, so nothing has to be known about what is open around it.
* `Unclosed.shown`: the stack shows the scopes of the brackets that are open.
* `WellBracketed.openAlong`: every point of a well-bracketed sequence has such a list.
* `run_wellBracketed`: the three together, for calls that start on the empty stack.
-/

namespace TinyGen.ScopeStack

/-! ## Calls -/

namespace Call

/-- Whether the call opens a scope that `exitScope` closes. -/
def isScope : Call → Bool
  | .enterProgram => true
  | .enterProcedure _ => true
  | .enterBlock => true
  | _ => false

/-- Whether the call opens a block. -/
def isBlock : Call → Bool
  | .enterBlock => true
  | .enterIf => true
  | .enterElse => true
  | _ => false

/-- The scope that a call opens, if a block gets the number `next`. -/
def scope? (next : Nat) : Call → Option ScopeId
  | .enterProgram => some .global
  | .enterProcedure ident => some (.procedure ident)
  | .enterBlock => some (.block next)
  | .enterIf => some (.block next)
  | .enterElse => some (.block next)
  | .exitIf => none
  | .exitScope => none

end Call

/-- Number of blocks that calls open. -/
def blocks (calls : List Call) : Nat :=
  calls.countP Call.isBlock

/-- Makes calls one after another, up to the first that is misused. -/
def run (s : ScopeStack) (calls : List Call) : Except Misuse ScopeStack :=
  calls.foldlM apply s

/-- The scopes that calls open, one after another: an opened scope is the current one then. -/
def opened (s : ScopeStack) : List Call → List ScopeId
  | [] => []
  | c :: rest =>
    match s.apply c with
    | .error _ => []
    | .ok s' => (if c.opens then s'.current.toList else []) ++ s'.opened rest

variable {s s' : ScopeStack} {c : Call} {a b w before body rest : List Call} {ids : List ScopeId}

theorem blocks_append (a b : List Call) : blocks (a ++ b) = blocks a + blocks b :=
  List.countP_append

theorem blocks_cons_of_isBlock (h : c.isBlock = true) (rest : List Call) :
    blocks (c :: rest) = blocks rest + 1 :=
  List.countP_cons_of_pos h

theorem blocks_cons_of_not_isBlock (h : c.isBlock = false) (rest : List Call) :
    blocks (c :: rest) = blocks rest :=
  List.countP_cons_of_neg (by rw [h]; decide)

theorem run_append_of_ok (h : s.run a = .ok s') (b : List Call) : s.run (a ++ b) = s'.run b := by
  rw [run, List.foldlM_append]
  show s.run a >>= _ = _
  rw [h]
  rfl

theorem run_cons_of_ok (h : s.apply c = .ok s') (rest : List Call) :
    s.run (c :: rest) = s'.run rest := by
  rw [run, List.foldlM_cons, h]
  rfl

/-! ## Numbers of blocks -/

/-- What one call does to the numbers: it opens the next block, or it opens none. -/
private theorem apply_numbers (h : s.apply c = .ok s') :
    (c.isBlock = true ∧ c.opens = true ∧ s'.current = some (.block s.nextBlock) ∧
      s'.nextBlock = s.nextBlock + 1) ∨
    (c.isBlock = false ∧ s'.nextBlock = s.nextBlock ∧
      (if c.opens then s'.current.toList else []).filterMap ScopeId.blockNumber? = []) := by
  cases c with
  | enterProgram => cases h; exact .inr ⟨rfl, rfl, rfl⟩
  | enterProcedure ident => cases h; exact .inr ⟨rfl, rfl, rfl⟩
  | enterBlock => cases h; exact .inl ⟨rfl, rfl, rfl, rfl⟩
  | enterIf => cases h; exact .inl ⟨rfl, rfl, rfl, rfl⟩
  | enterElse =>
    obtain ⟨active, next, _ | ⟨last, rest⟩⟩ := s
    · cases h
    · cases h
      exact .inl ⟨rfl, rfl, rfl, rfl⟩
  | exitIf =>
    obtain ⟨active, next, _ | ⟨last, rest⟩⟩ := s
    · cases h
    · cases h
      exact .inr ⟨rfl, rfl, rfl⟩
  | exitScope => cases h; exact .inr ⟨rfl, rfl, rfl⟩

/-- The blocks that calls open are numbered one after another, bracketed or not. -/
theorem blockNumbers_opened (h : s.run w = .ok s') :
    (s.opened w).filterMap ScopeId.blockNumber? = List.range' s.nextBlock (blocks w) := by
  induction w generalizing s with
  | nil => rfl
  | cons c rest ih =>
    cases ha : s.apply c with
    | error m =>
      rw [run, List.foldlM_cons, ha] at h
      cases h
    | ok s₁ =>
      rw [run_cons_of_ok ha] at h
      simp only [opened, ha, List.filterMap_append, ih h]
      rcases apply_numbers ha with ⟨hb, ho, hc, hn⟩ | ⟨hb, hn, hnone⟩
      · rw [blocks_cons_of_isBlock hb, List.range'_succ, hn, if_pos ho, hc]
        rfl
      · rw [blocks_cons_of_not_isBlock hb, hn, hnone, List.nil_append]

/-! ## Brackets -/

/-- Calls that close all they open: programs, procedures and blocks by `exitScope`, `if`s by `exitIf`,
after an else part or without one. -/
inductive WellBracketed : List Call → Prop where
  | nil : WellBracketed []
  | scope {c : Call} {body rest : List Call} (hc : c.isScope = true) (hbody : WellBracketed body)
      (hrest : WellBracketed rest) : WellBracketed (c :: (body ++ .exitScope :: rest))
  | ifThen {body rest : List Call} (hbody : WellBracketed body) (hrest : WellBracketed rest) :
      WellBracketed (.enterIf :: (body ++ .exitIf :: rest))
  | ifElse {body other rest : List Call} (hbody : WellBracketed body)
      (hother : WellBracketed other) (hrest : WellBracketed rest) :
      WellBracketed (.enterIf :: (body ++ .enterElse :: (other ++ .exitIf :: rest)))

/-- After the calls, the brackets that are still open stand for the scopes `ids`, the innermost first.
An `if` in its else part stands for the block of that part only. -/
inductive Unclosed : List Call → (ids : List ScopeId) → Prop where
  | none {w : List Call} (hw : WellBracketed w) : Unclosed w []
  | scope {before w : List Call} {ids : List ScopeId} {c : Call} {id : ScopeId}
      (h : Unclosed before ids) (hc : c.isScope = true)
      (hid : c.scope? (blocks before + 1) = some id) (hw : WellBracketed w) :
      Unclosed (before ++ c :: w) (id :: ids)
  | branch {before w : List Call} {ids : List ScopeId} (h : Unclosed before ids)
      (hw : WellBracketed w) :
      Unclosed (before ++ .enterIf :: w) (.block (blocks before + 1) :: ids)
  | elsePart {before body w : List Call} {ids : List ScopeId} (h : Unclosed before ids)
      (hbody : WellBracketed body) (hw : WellBracketed w) :
      Unclosed (before ++ .enterIf :: (body ++ .enterElse :: w))
        (.block (blocks (before ++ .enterIf :: body) + 1) :: ids)

theorem WellBracketed.append (ha : WellBracketed a) (hb : WellBracketed b) :
    WellBracketed (a ++ b) := by
  induction ha with
  | nil => exact hb
  | scope hc hbody _ _ ih =>
    rw [List.cons_append, List.append_assoc]
    exact .scope hc hbody ih
  | ifThen hbody _ _ ih =>
    rw [List.cons_append, List.append_assoc]
    exact .ifThen hbody ih
  | ifElse hbody hother _ _ _ ih =>
    rw [List.cons_append, List.append_assoc, List.cons_append, List.append_assoc]
    exact .ifElse hbody hother ih

theorem Unclosed.append (h : Unclosed before ids) (hw : WellBracketed w) :
    Unclosed (before ++ w) ids := by
  cases h with
  | none hv => exact .none (hv.append hw)
  | scope h hc hid hv =>
    rw [List.append_assoc]
    exact .scope h hc hid (hv.append hw)
  | branch h hv =>
    rw [List.append_assoc]
    exact .branch h (hv.append hw)
  | elsePart h hbody hv =>
    rw [List.append_assoc, List.cons_append, List.append_assoc]
    exact .elsePart h hbody (hv.append hw)

/-! ## A whole bracket -/

theorem apply_isScope (hc : c.isScope = true) (s : ScopeStack) :
    ∃ id, c.scope? s.nextBlock = some id ∧
      s.apply c = .ok ((s.push id).renumber (s.nextBlock + blocks [c])) := by
  cases c with
  | enterProgram => exact ⟨_, rfl, rfl⟩
  | enterProcedure ident => exact ⟨_, rfl, rfl⟩
  | enterBlock => exact ⟨_, rfl, rfl⟩
  | _ => cases hc

theorem apply_enterElse (s : ScopeStack) (n : Nat) :
    (s.enterIf.renumber n).apply .enterElse = .ok (s.inElse n) := rfl

/-- **A bracket restores the stack.** Only the numbers of its blocks are used up. -/
theorem WellBracketed.run_eq (h : WellBracketed w) (s : ScopeStack) :
    s.run w = .ok (s.renumber (s.nextBlock + blocks w)) := by
  induction h generalizing s with
  | nil => rfl
  | @scope c body rest hc _ _ ihb ihr =>
    obtain ⟨id, -, hopen⟩ := apply_isScope hc s
    have hclose : ∀ n, ((s.push id).renumber n).apply .exitScope = .ok (s.renumber n) :=
      fun _ => rfl
    have hblocks : blocks (c :: (body ++ .exitScope :: rest)) =
        blocks [c] + blocks body + blocks rest := by
      have hexit : blocks (.exitScope :: rest) = blocks rest := blocks_cons_of_not_isBlock rfl rest
      rw [← List.singleton_append, blocks_append, blocks_append, hexit, Nat.add_assoc]
    rw [run_cons_of_ok hopen, run_append_of_ok (ihb _), renumber_renumber,
      run_cons_of_ok (hclose _), ihr, hblocks]
    simp only [nextBlock_renumber, renumber_renumber, Nat.add_assoc]
  | @ifThen body rest _ _ ihb ihr =>
    have hopen : s.apply .enterIf = .ok s.enterIf := rfl
    have hclose : ∀ n, (s.enterIf.renumber n).apply .exitIf = .ok (s.renumber n) :=
      exitIf_enterIf s
    have hblocks : blocks (.enterIf :: (body ++ .exitIf :: rest)) =
        1 + blocks body + blocks rest := by
      rw [blocks_cons_of_isBlock rfl, blocks_append, blocks_cons_of_not_isBlock rfl]
      omega
    rw [run_cons_of_ok hopen, run_append_of_ok (ihb _), run_cons_of_ok (hclose _), ihr,
      hblocks]
    simp only [nextBlock_enterIf, nextBlock_renumber, renumber_renumber, Nat.add_assoc]
  | @ifElse body other rest _ _ _ ihb iho ihr =>
    have hopen : s.apply .enterIf = .ok s.enterIf := rfl
    -- The number of the else block is known only after the first body, so it is left open here.
    have hclose : ∀ m n, ((s.inElse m).renumber n).apply .exitIf = .ok (s.renumber n) :=
      exitIf_inElse s
    have hblocks : blocks (.enterIf :: (body ++ .enterElse :: (other ++ .exitIf :: rest))) =
        1 + blocks body + 1 + blocks other + blocks rest := by
      rw [blocks_cons_of_isBlock rfl, blocks_append, blocks_cons_of_isBlock rfl, blocks_append,
        blocks_cons_of_not_isBlock rfl]
      omega
    rw [run_cons_of_ok hopen, run_append_of_ok (ihb _), run_cons_of_ok (apply_enterElse s _),
      run_append_of_ok (iho _), run_cons_of_ok (hclose _ _), ihr, hblocks]
    simp only [nextBlock_enterIf, nextBlock_inElse, nextBlock_renumber, renumber_renumber,
      Nat.add_assoc]

/-! ## Open brackets -/

/-- The stack that `before` leads to has exactly the scopes `ids` visible. -/
structure Shows (before : List Call) (ids : List ScopeId) (s : ScopeStack) : Prop where
  run_eq : empty.run before = .ok s
  nested : s.Nested
  visible : s.visible = ids
  current : s.current = ids.head?
  next : s.nextBlock = blocks before + 1

theorem Shows.append (h : Shows before ids s) (hw : WellBracketed w) :
    Shows (before ++ w) ids (s.renumber (s.nextBlock + blocks w)) := by
  refine ⟨?_, h.nested.renumber _, h.visible, h.current, ?_⟩
  · rw [run_append_of_ok h.run_eq, hw.run_eq]
  · rw [nextBlock_renumber, h.next, blocks_append]
    omega

private theorem shows_nil : Shows [] [] empty :=
  ⟨rfl, nested_empty, rfl, rfl, rfl⟩

/-- One more call, which opens a bracket or the else part of one. -/
theorem Shows.call (h : Shows before ids s) {id : ScopeId} {ids' : List ScopeId}
    (hs : s.apply c = .ok s') (hnested : s'.Nested) (hvisible : s'.visible = id :: ids')
    (hcurrent : s'.current = some id) (hnext : s'.nextBlock = s.nextBlock + blocks [c]) :
    Shows (before ++ [c]) (id :: ids') s' := by
  refine ⟨?_, hnested, hvisible, hcurrent, ?_⟩
  · rw [run_append_of_ok h.run_eq, run_cons_of_ok hs]
    rfl
  · rw [hnext, h.next, blocks_append]
    omega

/-- **The stack shows the open brackets.** -/
theorem Unclosed.shown (h : Unclosed before ids) : ∃ s, Shows before ids s := by
  induction h with
  | none hw => exact ⟨_, shows_nil.append hw⟩
  | @scope before w ids c id _ hc hid hw ih =>
    obtain ⟨s, hs⟩ := ih
    obtain ⟨id', hid', hopen⟩ := apply_isScope hc s
    rw [hs.next, hid] at hid'
    obtain rfl : id = id' := Option.some.inj hid'
    have hvisible : ((s.push id).renumber (s.nextBlock + blocks [c])).visible = id :: ids := by
      rw [visible_renumber, hs.nested.visible_push, hs.visible]
    have hcall := hs.call hopen ((hs.nested.push id).renumber _) hvisible rfl rfl
    have happ := hcall.append hw
    rw [List.append_assoc] at happ
    exact ⟨_, happ⟩
  | @branch before w ids _ hw ih =>
    obtain ⟨s, hs⟩ := ih
    have hvisible : s.enterIf.visible = .block (blocks before + 1) :: ids := by
      rw [hs.nested.visible_enterIf, hs.visible, hs.next]
    have hcall := hs.call (c := .enterIf) rfl hs.nested.enterIf hvisible
      (by rw [current_enterIf, hs.next]) rfl
    have happ := hcall.append hw
    rw [List.append_assoc] at happ
    exact ⟨_, happ⟩
  | @elsePart before body w ids _ hbody hw ih =>
    obtain ⟨s, hs⟩ := ih
    -- The first branch is gone through; the stack in it does not depend on what it had visible.
    have hbranch := (hs.call (c := .enterIf) rfl hs.nested.enterIf
      hs.nested.visible_enterIf (current_enterIf s) rfl).append hbody
    have hnext := hbranch.next
    rw [List.append_assoc, List.singleton_append, nextBlock_renumber] at hnext
    rw [hnext] at hbranch
    have hvisible : (s.inElse (blocks (before ++ .enterIf :: body) + 1)).visible =
        .block (blocks (before ++ .enterIf :: body) + 1) :: ids := by
      rw [hs.nested.visible_inElse, hs.visible]
    have hcall := (hbranch.call (apply_enterElse s _) (hs.nested.inElse _) hvisible
      (current_inElse s _) rfl).append hw
    rw [List.append_assoc, List.append_assoc, List.append_assoc] at hcall
    exact ⟨_, hcall⟩

/-- Some brackets are open at each point of the calls `w` that follow `before`. -/
def OpenAlong (before w : List Call) : Prop :=
  ∀ a b, w = a ++ b → ∃ ids, Unclosed (before ++ a) ids

private theorem openAlong_nil (h : Unclosed before ids) : OpenAlong before [] := by
  intro a b ha
  obtain ⟨rfl, -⟩ := List.append_eq_nil_iff.mp ha.symm
  exact ⟨ids, by rwa [List.append_nil]⟩

theorem OpenAlong.cons (h : Unclosed before ids) (hw : OpenAlong (before ++ [c]) w) :
    OpenAlong before (c :: w) := by
  intro a b ha
  rcases List.cons_eq_append_iff.mp ha with ⟨rfl, -⟩ | ⟨inner, rfl, hinner⟩
  · exact ⟨ids, by rwa [List.append_nil]⟩
  · obtain ⟨ids', h'⟩ := hw inner b hinner
    rw [List.append_assoc] at h'
    exact ⟨ids', h'⟩

theorem OpenAlong.append {v : List Call} (hv : OpenAlong before v)
    (hw : OpenAlong (before ++ v) w) : OpenAlong before (v ++ w) := by
  intro a b ha
  rcases List.append_eq_append_iff.mp ha with ⟨rest, rfl, hrest⟩ | ⟨rest, hrest, -⟩
  · obtain ⟨ids, h⟩ := hw rest b hrest
    rw [List.append_assoc] at h
    exact ⟨ids, h⟩
  · exact hv a rest hrest

/-- At each point of well-bracketed calls, some brackets are open inside those that were open
before. -/
theorem WellBracketed.openAlong (hw : WellBracketed w) (h : Unclosed before ids) :
    OpenAlong before w := by
  induction hw generalizing before ids with
  | nil => exact openAlong_nil h
  | @scope c body rest hc hbody _ ihb ihr =>
    obtain ⟨id, hid, -⟩ := apply_isScope hc ⟨[], blocks before + 1, []⟩
    have hopen : Unclosed (before ++ [c]) (id :: ids) := .scope h hc hid .nil
    have hclosed : Unclosed (before ++ [c] ++ body ++ [.exitScope]) ids := by
      simpa using h.append (.scope hc hbody .nil)
    exact .cons h ((ihb hopen).append (.cons (hopen.append hbody) (ihr hclosed)))
  | @ifThen body rest hbody _ ihb ihr =>
    have hopen := Unclosed.branch h .nil
    have hclosed : Unclosed (before ++ [.enterIf] ++ body ++ [.exitIf]) ids := by
      simpa using h.append (.ifThen hbody .nil)
    exact .cons h ((ihb hopen).append (.cons (hopen.append hbody) (ihr hclosed)))
  | @ifElse body other rest hbody hother _ ihb iho ihr =>
    have hopen := Unclosed.branch h .nil
    have helse : Unclosed (before ++ [.enterIf] ++ body ++ [.enterElse])
        (.block (blocks (before ++ .enterIf :: body) + 1) :: ids) := by
      simpa using Unclosed.elsePart h hbody .nil
    have hclosed : Unclosed
        (before ++ [.enterIf] ++ body ++ [.enterElse] ++ other ++ [.exitIf]) ids := by
      simpa using h.append (.ifElse hbody hother .nil)
    exact .cons h ((ihb hopen).append (.cons (hopen.append hbody)
      ((iho helse).append (.cons (helse.append hother) (ihr hclosed)))))

/-- **Scopes follow their brackets.** Well-bracketed calls can be made from the empty stack, and at
each point between them: every open `if` has a scope of its own that is open; the visible scopes are
those of the brackets that are still open, the innermost first, and this is the current one; the
blocks opened so far have the numbers `1, 2, …`. A bracket leaves the open scopes, the open `if`s and
the visible scopes as it found them, so that nothing is open in the end. -/
theorem run_wellBracketed {calls : List Call} (h : WellBracketed calls) :
    (∀ before after, calls = before ++ after →
      ∃ s ids, empty.run before = .ok s ∧ (∀ i ∈ s.ifs, i.depth < s.depth) ∧
        Unclosed before ids ∧ (∀ ids', Unclosed before ids' → ids' = ids) ∧
        s.visible = ids ∧ s.current = ids.head? ∧
        (empty.opened before).filterMap ScopeId.blockNumber? = List.range' 1 (blocks before)) ∧
    (∀ before bracket after, calls = before ++ bracket ++ after → WellBracketed bracket →
      ∃ s s', empty.run before = .ok s ∧ empty.run (before ++ bracket) = .ok s' ∧
        s'.active = s.active ∧ s'.ifs = s.ifs ∧ s'.visible = s.visible) ∧
    ∃ s, empty.run calls = .ok s ∧ s.depth = 0 ∧ s.ifs = [] ∧ s.visible = [] := by
  have hpoint : ∀ before after, calls = before ++ after →
      ∃ s ids, Unclosed before ids ∧ Shows before ids s := by
    intro before after hcalls
    obtain ⟨ids, hids⟩ := h.openAlong (.none .nil) before after hcalls
    obtain ⟨s, hs⟩ := hids.shown
    exact ⟨s, ids, hids, hs⟩
  refine ⟨fun before after hcalls => ?_, fun before bracket after hcalls hbracket => ?_, ?_⟩
  · obtain ⟨s, ids, hids, hs⟩ := hpoint before after hcalls
    refine ⟨s, ids, hs.run_eq, hs.nested, hids, fun ids' hids' => ?_, hs.visible, hs.current,
      blockNumbers_opened hs.run_eq⟩
    -- Two readings of one prefix show the same stack, and that has one list of visible scopes.
    obtain ⟨s', hs'⟩ := hids'.shown
    obtain rfl : s' = s := Except.ok.inj (hs'.run_eq.symm.trans hs.run_eq)
    rw [← hs'.visible, hs.visible]
  · rw [List.append_assoc] at hcalls
    obtain ⟨s, ids, -, hs⟩ := hpoint before (bracket ++ after) hcalls
    exact ⟨s, _, hs.run_eq, (hs.append hbracket).run_eq, rfl, rfl, rfl⟩
  · exact ⟨_, h.run_eq empty, rfl, rfl, rfl⟩

/-- An `if` with an else part around a block and a second `if`, in a program. In the else part, after
the block and inside the second `if`, the first branch is hidden. -/
theorem run_nested_if :
    let before : List Call :=
      [.enterProgram, .enterIf, .enterBlock, .exitScope, .enterElse, .enterBlock, .exitScope, .enterIf]
    let after : List Call := [.exitIf, .exitIf, .exitScope]
    WellBracketed (before ++ after) ∧
    ∃ s, empty.run before = .ok s ∧ s.visible = [.block 5, .block 3, .global] ∧
      s.active = [.block 5, .block 3, .block 1, .global] ∧ s.current = some (.block 5) ∧
      (empty.opened before).filterMap ScopeId.blockNumber? = [1, 2, 3, 4, 5] := by
  intro before after
  have hblock : WellBracketed ([.enterBlock] ++ [] ++ [.exitScope]) := .scope rfl .nil .nil
  have hif : WellBracketed ([.enterIf] ++ [] ++ [.exitIf]) := .ifThen .nil .nil
  have hbody : WellBracketed (.enterIf :: ([.enterBlock, .exitScope] ++ .enterElse ::
      ([.enterBlock, .exitScope, .enterIf, .exitIf] ++ [.exitIf]))) :=
    .ifElse hblock (hblock.append hif) .nil
  have hcalls : WellBracketed (before ++ after) := .scope rfl hbody .nil
  obtain ⟨s, ids, hrun, -, hids, -, hvisible, hcurrent, hblocks⟩ :=
    (run_wellBracketed hcalls).1 before after rfl
  obtain rfl : _ = s := Except.ok.inj hrun
  exact ⟨hcalls, _, hrun, rfl, rfl, rfl, hblocks⟩

end TinyGen.ScopeStack
