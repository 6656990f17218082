import TinyGen.Proofs.Lowering

/-!
# Post-order listings

A listing is produced one node at a time, from a stack. `PostOrder.produces_nodes`: asked again and
again, the stack of a term gives the nodes of the term, operands before operators, and then no more.
Each place in the term is listed once (`Term.nodes_eq_paths`).

The listing says all about the term. A machine that joins the two last values at each operator
builds the term again (`Term.foldlM_rebuild`), and for that it only needs what is printed of a node.

Main statement: `Term.postOrder_determines`.
-/

namespace TinyGen

/-! ## One node after another -/

namespace PostOrder

variable {a b c : PostOrder} {xs ys : List Term}

/-- Called once for each of the nodes, `a` gives them in order and is `b` then. -/
inductive Produces : PostOrder → List Term → PostOrder → Prop
  | refl (a : PostOrder) : Produces a [] a
  | next {a b c : PostOrder} {node : Term} {nodes : List Term} (h : a.next? = some (node, b))
      (hrest : Produces b nodes c) : Produces a (node :: nodes) c

theorem Produces.trans (h : Produces a xs b) (h' : Produces b ys c) : Produces a (xs ++ ys) c := by
  induction h with
  | refl a => exact h'
  | next h _ ih => exact .next h (ih h')

theorem Produces.of_next?_eq (h : a.next? = b.next?) (hb : Produces b xs c) (hne : xs ≠ []) :
    Produces a xs c := by
  cases hb with
  | refl => exact absurd rfl hne
  | next hnext hrest => exact .next (h.trans hnext) hrest

/-- Before an operator is given, it is put back on the stack behind its operands. -/
theorem next?_operator (op : BinOp) (lhs rhs : Term) (stack : List (Term × Bool)) :
    next? ⟨(.binary op lhs rhs, false) :: stack⟩ =
      next? ⟨(lhs, false) :: (rhs, false) :: (.binary op lhs rhs, true) :: stack⟩ := rfl

private theorem produces_expanded (node : Term) (stack : List (Term × Bool)) :
    Produces ⟨(node, true) :: stack⟩ [node] ⟨stack⟩ :=
  .next rfl (.refl _)

/-- The nodes of a term are given before those below it on the stack. -/
theorem produces_nodes (t : Term) (stack : List (Term × Bool)) :
    Produces ⟨(t, false) :: stack⟩ t.nodes ⟨stack⟩ := by
  induction t generalizing stack with
  | literal text => exact .next rfl (.refl _)
  | var ref => exact .next rfl (.refl _)
  | binary op lhs rhs ihl ihr =>
    have hoperands := (ihl ((rhs, false) :: (.binary op lhs rhs, true) :: stack)).trans
      (ihr ((.binary op lhs rhs, true) :: stack))
    refine .of_next?_eq (next?_operator op lhs rhs stack)
      (hoperands.trans (produces_expanded _ stack)) ?_
    simp [Term.nodes]

end PostOrder

/-! ## Places in a term -/

/-- An operand of an operator. -/
inductive Side where
  | left
  | right
  deriving DecidableEq, Repr

namespace Term

/-- The node at the end of a path from the root. -/
def at? : Term → List Side → Option Term
  | t, [] => some t
  | .binary _ lhs _, .left :: path => lhs.at? path
  | .binary _ _ rhs, .right :: path => rhs.at? path
  | .literal _, _ :: _ => none
  | .var _, _ :: _ => none

/-- The paths to all nodes, in post-order. -/
def paths : Term → List (List Side)
  | .literal _ => [[]]
  | .var _ => [[]]
  | .binary _ lhs rhs => lhs.paths.map (.left :: ·) ++ rhs.paths.map (.right :: ·) ++ [[]]

/-- No node is reached in two ways. -/
theorem nodup_paths (t : Term) : t.paths.Nodup := by
  induction t with
  | literal text => simp [paths]
  | var ref => simp [paths]
  | binary op lhs rhs ihl ihr =>
    have hside : ∀ (side : Side) {paths : List (List Side)}, paths.Nodup →
        (paths.map (side :: ·)).Nodup := by
      intro side paths h
      simpa [List.Nodup, List.pairwise_map] using h
    have hboth : (lhs.paths.map (Side.left :: ·) ++ rhs.paths.map (Side.right :: ·)).Nodup :=
      List.nodup_append.mpr ⟨hside .left ihl, hside .right ihr, by simp⟩
    refine List.nodup_append.mpr ⟨hboth, List.nodup_cons.mpr ⟨List.not_mem_nil, .nil⟩, ?_⟩
    rintro path hpath _ hroot rfl
    simp [List.mem_singleton.mp hroot] at hpath

/-- The paths of a tree are those that lead to a node. -/
theorem mem_paths_iff {t : Term} {path : List Side} :
    path ∈ t.paths ↔ (t.at? path).isSome = true := by
  induction t generalizing path with
  | literal text => cases path <;> simp [paths, at?]
  | var ref => cases path <;> simp [paths, at?]
  | binary op lhs rhs ihl ihr =>
    rcases path with _ | ⟨_ | _, path⟩
    · simp [paths, at?]
    · simp [paths, at?, ihl]
    · simp [paths, at?, ihr]

/-- Post-order visits the node at each path, in the order of the paths. -/
theorem nodes_eq_paths (t : Term) : t.nodes.map some = t.paths.map t.at? := by
  induction t with
  | literal text => rfl
  | var ref => rfl
  | binary op lhs rhs ihl ihr =>
    simp [nodes, paths, ihl, ihr, Function.comp_def, at?]

/-! ## Building a term again -/

/-- What a machine does at a node: a leaf is put on the stack, and an operator takes its right
operand from it and then its left one. -/
def rebuild (stack : List Term) : Term → Option (List Term)
  | .literal text => some (.literal text :: stack)
  | .var ref => some (.var ref :: stack)
  | .binary op _ _ =>
    match stack with
    | rhs :: lhs :: rest => some (.binary op lhs rhs :: rest)
    | _ => none

/-- Trees that are rebuilt leave the stack below them alone. -/
theorem foldlM_rebuild (t : Term) (stack : List Term) :
    t.nodes.foldlM rebuild stack = some (t :: stack) := by
  induction t generalizing stack with
  | literal text => rfl
  | var ref => rfl
  | binary op lhs rhs ihl ihr =>
    rw [nodes, List.foldlM_append, List.foldlM_append, ihl]
    simp [ihr, rebuild]

end Term

/-! ## What is printed of a node -/

theorem VarRef.text_injective {v w : VarRef} (h : v.text = w.text) : v = w := by
  obtain ⟨x, s⟩ := v
  obtain ⟨y, t⟩ := w
  -- A name may have blanks in it, so the texts are compared from their ends.
  have hchars := congrArg (fun text => text.toList.reverse) h
  cases s <;> cases t <;> simp [VarRef.text, Ty.name] at hchars ⊢
  all_goals exact String.toList_inj.mp hchars

namespace Term

/-- The label of an operation tells its operator. -/
theorem operator_of_label {op op' : BinOp} {lhs rhs lhs' rhs' : Term}
    (h : (binary op lhs rhs).label = (binary op' lhs' rhs').label) : op = op' := by
  cases op <;> cases op' <;> simp [label, BinOp.isAdditive, BinOp.text] at h ⊢

/-- The machine needs no more of a node than its label. -/
theorem rebuild_congr {s t : Term} (h : s.label = t.label) (stack : List Term) :
    rebuild stack s = rebuild stack t := by
  -- Nodes of different kinds have labels that start with different letters.
  have hchars := congrArg String.toList h
  cases s with
  | literal text =>
    cases t with
    | literal text' =>
      simp only [label, String.append_right_inj] at h
      rw [h]
    | var ref => simp [label, VarRef.text] at hchars
    | binary op lhs rhs => cases op <;> simp [label, BinOp.isAdditive] at hchars
  | var ref =>
    cases t with
    | literal text => simp [label, VarRef.text] at hchars
    | var ref' => rw [VarRef.text_injective h]
    | binary op lhs rhs => cases op <;> simp [label, VarRef.text, BinOp.isAdditive] at hchars
  | binary op lhs rhs =>
    cases t with
    | literal text => cases op <;> simp [label, BinOp.isAdditive] at hchars
    | var ref => cases op <;> simp [label, VarRef.text, BinOp.isAdditive] at hchars
    | binary op' lhs' rhs' =>
      rw [operator_of_label h]
      rfl

theorem foldlM_rebuild_congr {xs ys : List Term} (h : xs.map label = ys.map label)
    (stack : List Term) : xs.foldlM rebuild stack = ys.foldlM rebuild stack := by
  induction xs generalizing ys stack with
  | nil =>
    rw [List.map_eq_nil_iff.mp h.symm]
  | cons x xs ih =>
    obtain ⟨y, ys, rfl, hy, hys⟩ := List.map_eq_cons_iff.mp h.symm
    rw [List.foldlM_cons, List.foldlM_cons, rebuild_congr hy.symm]
    congr 1
    funext stack'
    exact ih hys.symm stack'

/-- Labels in post-order tell the tree. -/
theorem eq_of_labels {s t : Term} (h : s.nodes.map label = t.nodes.map label) : s = t := by
  have hrebuilt := foldlM_rebuild_congr h []
  rw [foldlM_rebuild, foldlM_rebuild] at hrebuilt
  exact (List.cons.inj (Option.some.inj hrebuilt)).1

end Term

/-- The parts that are printed of an assignment, between commas. -/
def Statement.assignTokens (target : VarRef) (value : Term) : List String :=
  target.text :: value.postOrder.map Term.label ++ [":="]

theorem Statement.assignTokens_inj {v v' : VarRef} {t t' : Term} :
    assignTokens v t = assignTokens v' t' ↔ v = v' ∧ t = t' := by
  constructor
  · intro h
    obtain ⟨hv, ht⟩ := List.cons.inj h
    rw [Term.postOrder_eq_nodes, Term.postOrder_eq_nodes] at ht
    exact ⟨VarRef.text_injective hv, Term.eq_of_labels (List.append_cancel_right ht)⟩
  · rintro ⟨rfl, rfl⟩
    rfl

/-- **A listing is the post-order of its term and determines it.** Asked again and again for the
next node, the stack of a term gives the nodes of the left operand, those of the right one and the
operator itself, and then it is empty. So each place in the term is listed once. A machine that takes
the right and then the left operand from its stack at each operator never misses one and ends with the
term as its only value. Assignments that are printed in the same parts are the same. -/
theorem Term.postOrder_determines (t : Term) :
    (PostOrder.Produces ⟨[(t, false)]⟩ t.nodes ⟨[]⟩ ∧ (PostOrder.mk []).next? = none ∧
      t.postOrder = t.nodes) ∧
    (t.paths.Nodup ∧ (∀ path, path ∈ t.paths ↔ (t.at? path).isSome = true) ∧
      t.postOrder.map some = t.paths.map t.at?) ∧
    t.postOrder.foldlM Term.rebuild [] = some [t] ∧
    ∀ target, (Statement.assign target t).text =
        "[" ++ ", ".intercalate (Statement.assignTokens target t) ++ "]" ∧
      ∀ target' t', Statement.assignTokens target t = Statement.assignTokens target' t' ↔
        target = target' ∧ t = t' := by
  have hlisted := t.postOrder_eq_nodes
  refine ⟨⟨PostOrder.produces_nodes t [], rfl, hlisted⟩, ⟨t.nodup_paths, ?_, ?_⟩, ?_, ?_⟩
  · exact fun _ => mem_paths_iff
  · rw [hlisted, nodes_eq_paths]
  · rw [hlisted, foldlM_rebuild]
  · exact fun target => ⟨rfl, fun _ _ => Statement.assignTokens_inj⟩

end TinyGen
