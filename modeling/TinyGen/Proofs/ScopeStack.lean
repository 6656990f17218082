import TinyGen.ScopeStack

/-!
# Entering and leaving scopes

What the calls of one construct do to the open scopes. A program, a procedure or a block adds one
visible scope in front. So does an `if`, and its else part replaces that scope by its own: the block
of the first branch stays open, hidden. Leaving a construct gives back the scopes that were open
before it, except that the numbers of its blocks are used up (`ScopeStack.renumber`).

`ScopeStack.Nested` is the invariant that this rests on: an open `if` stands below an open scope, so
a scope that is opened next is not taken for its hidden branch.
-/

namespace TinyGen.ScopeStack

/-- The same open scopes, where the next block gets number `n`. -/
def renumber (s : ScopeStack) (n : Nat) : ScopeStack :=
  { s with nextBlock := n }

/-- Every open `if` has a scope open above the place where it started. -/
def Nested (s : ScopeStack) : Prop :=
  ∀ i ∈ s.ifs, i.depth < s.depth

variable {s : ScopeStack}

@[simp] theorem visible_renumber (s : ScopeStack) (n : Nat) : (s.renumber n).visible = s.visible := rfl

@[simp] theorem nextBlock_renumber (s : ScopeStack) (n : Nat) : (s.renumber n).nextBlock = n := rfl

@[simp] theorem renumber_renumber (s : ScopeStack) (m n : Nat) :
    (s.renumber m).renumber n = s.renumber n := rfl

theorem Nested.renumber (h : s.Nested) (n : Nat) : (s.renumber n).Nested := h

/-- Without open scopes there is no `if` to be nested. -/
theorem nested_empty : empty.Nested := by
  intro i hi
  cases hi

/-! ## Hidden scopes -/

/-- A scope is hidden only at the depth of an open `if`. -/
theorem hides_eq_false {ifs : List OpenIf} {depth : Nat} (h : ∀ i ∈ ifs, i.depth ≠ depth) :
    hides ifs depth = false := by
  rw [hides, List.any_eq_false]
  intro i hi
  simp [h i hi]

/-- Which scopes are visible depends only on which of them are hidden. -/
theorem visibleIn_congr {ifs ifs' : List OpenIf} {active : List ScopeId}
    (h : ∀ depth < active.length, hides ifs depth = hides ifs' depth) :
    visibleIn ifs active = visibleIn ifs' active := by
  induction active with
  | nil => rfl
  | cons id below ih =>
    have hb := ih fun depth hd => h depth (Nat.lt_succ_of_lt hd)
    rw [visibleIn, visibleIn, h below.length (Nat.lt_succ_self _), hb]

/-- What is visible is open. -/
theorem visibleIn_subset (ifs : List OpenIf) (active : List ScopeId) :
    visibleIn ifs active ⊆ active := by
  induction active with
  | nil => exact List.nil_subset _
  | cons id below ih =>
    rw [visibleIn]
    split
    · exact List.subset_cons_of_subset _ ih
    · exact List.cons_subset_cons _ ih

theorem Nested.hides_depth (h : s.Nested) : hides s.ifs s.depth = false :=
  hides_eq_false fun i hi => Nat.ne_of_lt (h i hi)

/-! ## Programs, procedures and blocks -/

theorem Nested.push (h : s.Nested) (id : ScopeId) : (s.push id).Nested :=
  fun i hi => Nat.lt_succ_of_lt (h i hi)

/-- A scope that is opened is visible, in front of all others. -/
theorem Nested.visible_push (h : s.Nested) (id : ScopeId) :
    (s.push id).visible = id :: s.visible := by
  show (if hides s.ifs s.depth then _ else _) = _
  rw [h.hides_depth]
  rfl

/-- A block is opened under the next number. -/
theorem enterBlock_eq (s : ScopeStack) :
    s.enterBlock = (s.push (.block s.nextBlock)).renumber (s.nextBlock + 1) := rfl

/-! ## Both branches of an `if` -/

theorem Nested.enterIf (h : s.Nested) : s.enterIf.Nested := by
  intro i hi
  rcases List.mem_cons.mp hi with rfl | hi
  · exact Nat.lt_succ_self _
  · exact Nat.lt_succ_of_lt (h i hi)

theorem nextBlock_enterIf (s : ScopeStack) : s.enterIf.nextBlock = s.nextBlock + 1 := rfl

theorem current_enterIf (s : ScopeStack) : s.enterIf.current = some (.block s.nextBlock) := rfl

/-- In the body of an `if` its block is visible, in front of all others. -/
theorem Nested.visible_enterIf (h : s.Nested) :
    s.enterIf.visible = .block s.nextBlock :: s.visible := by
  have hh : ∀ depth, hides (⟨s.depth, false⟩ :: s.ifs) depth = hides s.ifs depth := fun _ => rfl
  show visibleIn (⟨s.depth, false⟩ :: s.ifs) (.block s.nextBlock :: s.active) = _
  rw [visibleIn_congr fun depth _ => hh depth]
  exact h.visible_push (.block s.nextBlock)

/-- Leaving an `if` closes what it has opened; numbers are not given back. -/
theorem exitIf_enterIf (s : ScopeStack) (n : Nat) :
    (s.enterIf.renumber n).exitIf = .ok (s.renumber n) := by
  show Except.ok _ = _
  simp [enterIf, enterBlock, renumber, depth]

/-- The open scopes in the else part of an `if` that was entered in `s`, when the next block had
number `n`. -/
def inElse (s : ScopeStack) (n : Nat) : ScopeStack :=
  ⟨.block n :: .block s.nextBlock :: s.active, n + 1, ⟨s.depth, true⟩ :: s.ifs⟩

theorem nextBlock_inElse (s : ScopeStack) (n : Nat) : (s.inElse n).nextBlock = n + 1 := rfl

theorem current_inElse (s : ScopeStack) (n : Nat) : (s.inElse n).current = some (.block n) := rfl

theorem Nested.inElse (h : s.Nested) (n : Nat) : (s.inElse n).Nested := by
  intro i hi
  rcases List.mem_cons.mp hi with rfl | hi
  · exact Nat.lt_succ_of_lt (Nat.lt_succ_self _)
  · exact Nat.lt_succ_of_lt (Nat.lt_succ_of_lt (h i hi))

/-- In the else part the block of the first branch is not visible. -/
theorem Nested.visible_inElse (h : s.Nested) (n : Nat) :
    (s.inElse n).visible = .block n :: s.visible := by
  have htop : hides (⟨s.depth, true⟩ :: s.ifs) (s.depth + 1) = false := by
    apply hides_eq_false
    intro i hi
    rcases List.mem_cons.mp hi with rfl | hi
    · exact Nat.ne_of_lt (Nat.lt_succ_self _)
    · exact Nat.ne_of_lt (Nat.lt_succ_of_lt (h i hi))
  have hbranch : hides (⟨s.depth, true⟩ :: s.ifs) s.depth = true := by simp [hides]
  have hbelow : ∀ depth < s.active.length,
      hides (⟨s.depth, true⟩ :: s.ifs) depth = hides s.ifs depth := by
    intro depth hd
    have hne : s.depth ≠ depth := Nat.ne_of_gt hd
    simp [hides, hne]
  show (if hides (⟨s.depth, true⟩ :: s.ifs) (s.depth + 1) then _ else
    _ :: (if hides (⟨s.depth, true⟩ :: s.ifs) s.depth then
      visibleIn (⟨s.depth, true⟩ :: s.ifs) s.active else _)) = _
  rw [htop, hbranch, visibleIn_congr hbelow]
  rfl

/-- Leaving an `if` from its else part closes both of its blocks. -/
theorem exitIf_inElse (s : ScopeStack) (m n : Nat) :
    ((s.inElse m).renumber n).exitIf = .ok (s.renumber n) := by
  show Except.ok _ = _
  have hd : s.active.length + 1 + 1 - s.active.length = 2 := by omega
  simp [inElse, renumber, depth, hd]

/-! ## One call -/

variable {s' : ScopeStack} {c : Call}

/-- The scope that a call opens: the next block, whose number is used up, or no block at all. -/
theorem opened_cases (h : s.apply c = .ok s') (hc : c.opens = true) :
    ∃ id, s'.active = id :: s.active ∧
      (id = .block s.nextBlock ∧ s'.nextBlock = s.nextBlock + 1 ∨
        (id = .global ∨ ∃ ident, id = .procedure ident) ∧ s'.nextBlock = s.nextBlock) := by
  cases c with
  | enterProgram => cases h; exact ⟨_, rfl, .inr ⟨.inl rfl, rfl⟩⟩
  | enterProcedure ident => cases h; exact ⟨_, rfl, .inr ⟨.inr ⟨ident, rfl⟩, rfl⟩⟩
  | enterBlock => cases h; exact ⟨_, rfl, .inl ⟨rfl, rfl⟩⟩
  | enterIf => cases h; exact ⟨_, rfl, .inl ⟨rfl, rfl⟩⟩
  | enterElse =>
    obtain ⟨active, next, _ | ⟨last, rest⟩⟩ := s
    · cases h
    · cases h
      exact ⟨_, rfl, .inl ⟨rfl, rfl⟩⟩
  | exitIf => cases hc
  | exitScope => cases hc

/-- A call that opens no scope closes some, the innermost ones, and gives no number. -/
theorem closed_cases (h : s.apply c = .ok s') (hc : c.opens = false) :
    s'.active <:+ s.active ∧ s'.nextBlock = s.nextBlock := by
  cases c with
  | exitIf =>
    obtain ⟨active, next, _ | ⟨last, rest⟩⟩ := s
    · cases h
    · cases h
      exact ⟨List.drop_suffix _ _, rfl⟩
  | exitScope => cases h; exact ⟨List.tail_suffix _, rfl⟩
  | _ => cases hc

/-- A call that opens puts one scope on top. -/
theorem active_of_opens (h : s.apply c = .ok s') (hc : c.opens = true) :
    ∃ id, s'.active = id :: s.active := by
  obtain ⟨id, hactive, -⟩ := opened_cases h hc
  exact ⟨id, hactive⟩

/-- A call that closes leaves no scope that was not there. -/
theorem active_of_closes (h : s.apply c = .ok s') (hc : c.opens = false) :
    s'.active ⊆ s.active :=
  (closed_cases h hc).1.subset

end TinyGen.ScopeStack
