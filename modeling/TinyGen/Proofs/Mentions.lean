import Mathlib.Data.List.Forall2
import TinyGen.Proofs.Registers
import TinyGen.Proofs.Uses

/-!
# Names from the parse tree to the target code

A name of the parse tree is an `Access`: what it is used for, and the scopes in which it is looked up.
In statement trees it has become a `Mention`, a name with its type.

* `Program.statements_resolved`: the mentions of the statement trees are the accesses of the program,
  each resolved, in the same order.
* `Code.ofStatements_mentioning`: three-address code has no other names than the mentions, and it
  transfers the values of those that are read or written, in their order.
* `Target.image_names`, `Target.flatMap_image_transfers`: selection adds no name and keeps the
  transfers.
-/

namespace TinyGen

/-- What a name is used for: in an assignment, or to transfer a value. -/
inductive Role where
  | compute
  | read
  | write
  deriving DecidableEq, Repr

/-- A use of a name, with its role. -/
structure Access where
  role : Role
  use : Use
  deriving DecidableEq, Repr

/-- A resolved name, with its role. -/
structure Mention where
  role : Role
  ref : VarRef
  deriving DecidableEq, Repr

/-- The accesses to names that `scopes` enclose. -/
def accessesIn (role : Role) (scopes : List ScopeId) (idents : List String) : List Access :=
  idents.map fun ident => ⟨role, scopes, ident⟩

private theorem accessesIn_append (role : Role) (scopes : List ScopeId) (xs ys : List String) :
    accessesIn role scopes (xs ++ ys) = accessesIn role scopes xs ++ accessesIn role scopes ys :=
  List.map_append

namespace ParseTree

mutual

/-- The accesses in a statement that `scopes` enclose, where `next` is the number of the first
block. -/
def Stmt.accesses (scopes : List ScopeId) (next : Nat) : Stmt → List Access
  | .assign target expr => accessesIn .compute scopes ([target] ++ expr.names)
  | .read idents => accessesIn .read scopes idents
  | .write idents => accessesIn .write scopes idents
  | .return _ => []
  | .ifThen _ _ body elsePart =>
    stmtAccesses (.block next :: scopes) (next + 1) body ++
      elseAccesses scopes (next + 1 + stmtBlocks body) elsePart
  | .while _ _ body => stmtAccesses (.block next :: scopes) (next + 1) body

/-- The accesses in statements. -/
def stmtAccesses (scopes : List ScopeId) (next : Nat) : List Stmt → List Access
  | [] => []
  | stmt :: rest => stmt.accesses scopes next ++ stmtAccesses scopes (next + stmt.blockCount) rest

/-- The accesses in the else part of an `if` that `scopes` enclose. -/
def elseAccesses (scopes : List ScopeId) (next : Nat) : Option ElsePart → List Access
  | none => []
  | some ⟨_, body⟩ => stmtAccesses (.block next :: scopes) (next + 1) body

end

/-- The accesses in procedures. -/
def funcAccesses (next : Nat) : List FuncDecl → List Access
  | [] => []
  | func :: rest =>
    stmtAccesses [.procedure func.ident, .global] next func.body ++
      funcAccesses (next + stmtBlocks func.body) rest

/-- The accesses in a program, in the order of the walk. -/
def Program.accesses (program : Program) : List Access :=
  funcAccesses 1 program.funcs

/-- The names that a program reads or writes, in the order of the walk. -/
def Program.transfers (program : Program) : List Access :=
  program.accesses.filter (·.role ≠ .compute)

end ParseTree

/-- The names in a value. -/
def Term.mentions : Term → List Mention
  | .literal _ => []
  | .var v => [⟨.compute, v⟩]
  | .binary _ lhs rhs => lhs.mentions ++ rhs.mentions

/-- The names in a statement tree. -/
def Statement.mentions : Statement → List Mention
  | .assign target value => ⟨.compute, target⟩ :: value.mentions
  | .stringDecl _ _ => []
  | .read vars => vars.map (Mention.mk .read)
  | .write vars => vars.map (Mention.mk .write)

/-- The names in statement trees. -/
def treeMentions (statements : List Statement) : List Mention :=
  statements.flatMap Statement.mentions

theorem treeMentions_append (a b : List Statement) :
    treeMentions (a ++ b) = treeMentions a ++ treeMentions b :=
  List.flatMap_append

/-! ## Resolved names -/

/-- The mention is what the access stands for: the name and the type of the declaration that is found
for it. -/
def Resolves (t : ScopeTable) (access : Access) (mention : Mention) : Prop :=
  access.role = mention.role ∧ ∃ symbol,
    t.innermost? access.use.ident access.use.scopes = some symbol ∧
      mention.ref = ⟨symbol.ident, symbol.ty⟩

/-- What `x` gives mentions the names of `accesses`, each resolved, in order. -/
def Resolved {α : Type} (t : ScopeTable) (accesses : List Access) (mentions : α → List Mention)
    (x : Except Error α) : Prop :=
  ∀ value, x = .ok value → List.Forall₂ (Resolves t) accesses (mentions value)

section Resolved

variable {α β : Type} {t : ScopeTable} {a b : List Access} {f : α → List Mention}
  {g : β → List Mention}

theorem resolved_ok {value : α} (h : List.Forall₂ (Resolves t) a (f value)) :
    Resolved t a f (.ok value) := by
  intro value' he
  cases he
  exact h

/-- What is computed from a value may rely on its mentions. -/
theorem Resolved.bind {x : Except Error α} {y : α → Except Error β} (hx : Resolved t a f x)
    (hy : ∀ value, List.Forall₂ (Resolves t) a (f value) → Resolved t b g (y value)) :
    Resolved t b g (x >>= y) := by
  cases x with
  | error e => exact fun _ he => nomatch he
  | ok value => exact hy value (hx value rfl)

/-- A name that is resolved is the symbol that its scopes declare. -/
theorem resolved_resolveIn (t : ScopeTable) (role : Role) (scopes : List ScopeId) (ident : String) :
    Resolved t (accessesIn role scopes [ident]) (fun v => [⟨role, v⟩]) (t.resolveIn scopes ident) := by
  intro v hv
  rw [ScopeTable.resolveIn] at hv
  cases hs : t.innermost? ident scopes with
  | none => rw [hs] at hv; cases hv
  | some symbol =>
    rw [hs] at hv
    cases hv
    exact .cons ⟨rfl, symbol, hs, rfl⟩ .nil

/-- Names in a list are resolved one by one. -/
theorem resolved_mapM (t : ScopeTable) (role : Role) (scopes : List ScopeId) (idents : List String) :
    Resolved t (accessesIn role scopes idents) (fun vars => vars.map (Mention.mk role))
      (idents.mapM (t.resolveIn scopes)) := by
  induction idents with
  | nil => exact resolved_ok .nil
  | cons ident rest ih =>
    rw [List.mapM_cons]
    refine (resolved_resolveIn t role scopes ident).bind fun v hv => ?_
    refine ih.bind fun vars hvars => ?_
    exact resolved_ok (List.rel_append hv hvars)

end Resolved

namespace ParseTree

mutual

/-- The mentions of a value are the names of its expression, resolved in place. -/
theorem Expr.reading_resolved (expr : Expr) (t : ScopeTable) (scopes : List ScopeId) :
    Resolved t (accessesIn .compute scopes expr.names) Term.mentions
      (expr.reading (t.operandIn scopes)) := by
  obtain ⟨first, rest⟩ := expr
  rw [Expr.names, Expr.reading, accessesIn_append]
  exact (Factor.reading_resolved first t scopes).bind fun value hvalue =>
    termsReading_resolved rest t scopes hvalue

/-- A value that is built so far mentions the names before the operators that are left. -/
theorem termsReading_resolved (rest : List (AddOp × Factor)) (t : ScopeTable)
    (scopes : List ScopeId) {a : List Access} {value : Term}
    (h : List.Forall₂ (Resolves t) a value.mentions) :
    Resolved t (a ++ accessesIn .compute scopes (termNames rest)) Term.mentions
      (termsReading (t.operandIn scopes) value rest) := by
  match rest with
  | [] =>
    rw [termNames, accessesIn, List.map_nil, List.append_nil]
    exact resolved_ok h
  | (op, factor) :: rest =>
    rw [termNames, termsReading_cons, accessesIn_append, ← List.append_assoc]
    exact (Factor.reading_resolved factor t scopes).bind fun rhs hrhs =>
      termsReading_resolved rest t scopes (List.rel_append h hrhs)

theorem Factor.reading_resolved (factor : Factor) (t : ScopeTable) (scopes : List ScopeId) :
    Resolved t (accessesIn .compute scopes factor.names) Term.mentions
      (factor.reading (t.operandIn scopes)) := by
  obtain ⟨first, rest⟩ := factor
  rw [Factor.names, Factor.reading, accessesIn_append]
  exact (Primary.reading_resolved first t scopes).bind fun value hvalue =>
    productsReading_resolved rest t scopes hvalue

theorem productsReading_resolved (rest : List (MulOp × Primary)) (t : ScopeTable)
    (scopes : List ScopeId) {a : List Access} {value : Term}
    (h : List.Forall₂ (Resolves t) a value.mentions) :
    Resolved t (a ++ accessesIn .compute scopes (productNames rest)) Term.mentions
      (productsReading (t.operandIn scopes) value rest) := by
  match rest with
  | [] =>
    rw [productNames, accessesIn, List.map_nil, List.append_nil]
    exact resolved_ok h
  | (op, primary) :: rest =>
    rw [productNames, productsReading_cons, accessesIn_append, ← List.append_assoc]
    exact (Primary.reading_resolved primary t scopes).bind fun rhs hrhs =>
      productsReading_resolved rest t scopes (List.rel_append h hrhs)

theorem Primary.reading_resolved (primary : Primary) (t : ScopeTable) (scopes : List ScopeId) :
    Resolved t (accessesIn .compute scopes primary.names) Term.mentions
      (primary.reading (t.operandIn scopes)) := by
  match primary with
  | .atom text =>
    rw [Primary.names, Primary.reading, ScopeTable.operandIn]
    split
    case isTrue => exact resolved_ok .nil
    case isFalse =>
      exact (resolved_resolveIn t .compute scopes text).bind fun v hv => resolved_ok hv
  | .group inner => exact Expr.reading_resolved inner t scopes

end

/-- String declarations mention nothing. -/
theorem treeMentions_strings (decls : List Decl) (rest : List Statement) :
    treeMentions (decls.flatMap Decl.strings ++ rest) = treeMentions rest := by
  have hnone : treeMentions (decls.flatMap Decl.strings) = [] := by
    rw [treeMentions, List.flatMap_eq_nil_iff]
    intro statement hs
    obtain ⟨decl, -, hd⟩ := List.mem_flatMap.mp hs
    cases decl with
    | var ty idents => cases hd
    | string ident literal => rw [List.mem_singleton.mp hd, Statement.mentions]
  rw [treeMentions_append, hnone, List.nil_append]

mutual

/-- The mentions of the trees of a statement are its accesses, resolved in place. -/
theorem Stmt.lexical_resolved (stmt : Stmt) (t : ScopeTable) (scopes : List ScopeId) (next : Nat) :
    Resolved t (stmt.accesses scopes next) treeMentions (stmt.lexical t scopes next) := by
  match stmt with
  | .assign target expr =>
    rw [Stmt.accesses, Stmt.lexical, accessesIn_append]
    refine (resolved_resolveIn t .compute scopes target).bind fun v hv => ?_
    refine (Expr.reading_resolved expr t scopes).bind fun value hvalue => resolved_ok ?_
    simpa [treeMentions, Statement.mentions] using List.rel_append hv hvalue
  | .read idents =>
    rw [Stmt.accesses, Stmt.lexical]
    refine (resolved_mapM t .read scopes idents).bind fun vars hvars => resolved_ok ?_
    simpa [treeMentions, Statement.mentions] using hvars
  | .write idents =>
    rw [Stmt.accesses, Stmt.lexical]
    refine (resolved_mapM t .write scopes idents).bind fun vars hvars => resolved_ok ?_
    simpa [treeMentions, Statement.mentions] using hvars
  | .return _ => exact resolved_ok .nil
  | .ifThen _ decls body elsePart =>
    rw [Stmt.accesses, Stmt.lexical]
    refine (stmtsLexical_resolved body t _ _).bind fun inner hinner => ?_
    refine (elseLexical_resolved elsePart t _ _).bind fun other hother => resolved_ok ?_
    rw [List.append_assoc, treeMentions_strings, treeMentions_append]
    exact List.rel_append hinner hother
  | .while _ decls body =>
    rw [Stmt.accesses, Stmt.lexical]
    refine (stmtsLexical_resolved body t _ _).bind fun inner hinner => resolved_ok ?_
    rwa [treeMentions_strings]

theorem stmtsLexical_resolved (stmts : List Stmt) (t : ScopeTable) (scopes : List ScopeId)
    (next : Nat) :
    Resolved t (stmtAccesses scopes next stmts) treeMentions (stmtsLexical t scopes next stmts) := by
  match stmts with
  | [] => exact resolved_ok .nil
  | stmt :: rest =>
    rw [stmtAccesses, stmtsLexical]
    refine (Stmt.lexical_resolved stmt t _ _).bind fun first hfirst => ?_
    refine (stmtsLexical_resolved rest t _ _).bind fun others hothers => resolved_ok ?_
    rw [treeMentions_append]
    exact List.rel_append hfirst hothers

theorem elseLexical_resolved (elsePart : Option ElsePart) (t : ScopeTable) (scopes : List ScopeId)
    (next : Nat) :
    Resolved t (elseAccesses scopes next elsePart) treeMentions
      (elseLexical t scopes next elsePart) := by
  match elsePart with
  | none => exact resolved_ok .nil
  | some ⟨decls, body⟩ =>
    rw [elseAccesses, elseLexical]
    refine (stmtsLexical_resolved body t _ _).bind fun inner hinner => resolved_ok ?_
    rwa [treeMentions_strings]

end

/-- The mentions of the trees of procedures are their accesses, resolved in place. -/
theorem funcsLexical_resolved (funcs : List FuncDecl) (t : ScopeTable) (next : Nat) :
    Resolved t (funcAccesses next funcs) treeMentions (funcsLexical t next funcs) := by
  induction funcs generalizing next with
  | nil => exact resolved_ok .nil
  | cons func rest ih =>
    have hfunc : Resolved t (stmtAccesses [.procedure func.ident, .global] next func.body)
        treeMentions (func.lexical t next) := by
      refine (stmtsLexical_resolved func.body t _ _).bind fun inner hinner => resolved_ok ?_
      rwa [treeMentions_strings]
    rw [funcAccesses, funcsLexical]
    refine hfunc.bind fun first hfirst => ?_
    refine (ih _).bind fun others hothers => resolved_ok ?_
    rw [treeMentions_append]
    exact List.rel_append hfirst hothers

/-- **Statement trees mention the names of the program**, in its order and each resolved in the scopes
that enclose it. -/
theorem Program.statements_resolved {program : Program} {t : ScopeTable}
    {statements : List Statement} (h : program.statements t = .ok statements) :
    List.Forall₂ (Resolves t) program.accesses (treeMentions statements) := by
  refine Resolved.bind (funcsLexical_resolved program.funcs t 1) ?_ statements
    (lexical_of_statements h)
  intro inner hinner
  refine resolved_ok ?_
  rwa [treeMentions_strings]

end ParseTree

/-! ## Names in three-address code -/

/-- The name of the mention. -/
def Mention.ident (m : Mention) : String :=
  m.ref.ident

/-- Whether a value is read into the name or written from it. -/
def Mention.isTransfer (m : Mention) : Bool :=
  m.role ≠ .compute

namespace ThreeAddress

/-- The variable of an operand. -/
def Operand.names : Operand → List String
  | .temp _ => []
  | .var ident => [ident]
  | .literal _ => []

/-- The variables of an instruction. -/
def Instr.names : Instr → List String
  | .store _ src dst => src.names ++ dst.names
  | .binary _ _ lhs rhs _ => lhs.names ++ rhs.names
  | .read _ ident => [ident]
  | .write _ ident => [ident]
  | _ => []

/-- The name whose value the instruction reads or writes. -/
def Instr.transfer? : Instr → Option Mention
  | .read ty ident => some ⟨.read, ident, ty⟩
  | .write ty ident => some ⟨.write, ident, ty⟩
  | _ => none

/-- Instructions that compute with the names of a list, and transfer nothing. -/
def ComputesWith (idents : List String) (instrs : List Instr) : Prop :=
  ∀ i ∈ instrs, i.names ⊆ idents ∧ i.transfer? = none

namespace ComputesWith

variable {idents idents' : List String} {i : Instr} {a b : List Instr}

theorem nil (idents : List String) : ComputesWith idents [] :=
  fun _ hi => absurd hi List.not_mem_nil

theorem cons (hi : i.names ⊆ idents) (ht : i.transfer? = none) (h : ComputesWith idents a) :
    ComputesWith idents (i :: a) :=
  List.forall_mem_cons.mpr ⟨⟨hi, ht⟩, h⟩

theorem append (ha : ComputesWith idents a) (hb : ComputesWith idents b) :
    ComputesWith idents (a ++ b) :=
  List.forall_mem_append.mpr ⟨ha, hb⟩

theorem mono (h : ComputesWith idents a) (hs : idents ⊆ idents') : ComputesWith idents' a :=
  fun i hi => ⟨fun _ hn => hs ((h i hi).1 hn), (h i hi).2⟩

/-- Code that computes neither reads nor writes. -/
theorem transfers (h : ComputesWith idents a) : a.filterMap Instr.transfer? = [] :=
  List.filterMap_eq_nil_iff.mpr fun i hi => (h i hi).2

end ComputesWith

/-- The names that a value is made of: its code computes with them, and it is found in one of them or
in none. -/
structure Value.MadeOf (idents : List String) (v : Value) : Prop where
  code : ComputesWith idents v.code
  location : v.location.names ⊆ idents

/-- More names may be allowed. -/
theorem Value.MadeOf.mono {idents idents' : List String} {v : Value} (h : v.MadeOf idents)
    (hs : idents ⊆ idents') : v.MadeOf idents' :=
  ⟨h.code.mono hs, fun _ hn => hs (h.location hn)⟩

/-- Loading an operand brings in no name. -/
theorem Value.MadeOf.ready {idents : List String} {v : Value} (h : v.MadeOf idents) (ty : Ty)
    (dst : Nat) : ComputesWith idents (v.ready ty dst).1 ∧ (v.ready ty dst).2.1.names ⊆ idents := by
  obtain ⟨code, location, _ | _⟩ := v
  case typed => exact ⟨.nil _, h.location⟩
  case constant =>
    have hload : (Instr.store ty location (.temp ⟨dst⟩)).names ⊆ idents :=
      List.append_subset.mpr ⟨h.location, List.nil_subset _⟩
    exact ⟨.cons hload rfl (.nil _), List.nil_subset _⟩

/-- An operation brings in no name. -/
theorem applyOp_madeOf {op : BinOp} {l r v : Value} {n n' : Nat} {idents : List String}
    (hl : l.MadeOf idents) (hr : r.MadeOf idents) (h : applyOp op l r n = .ok (v, n')) :
    v.MadeOf idents := by
  obtain ⟨ty, -, -, -, rfl⟩ := applyOp_ok h
  obtain ⟨hloadl, hleft⟩ := hl.ready ty (n + 1)
  obtain ⟨hloadr, hright⟩ := hr.ready ty (l.ready ty (n + 1)).2.2
  have hoperation : ComputesWith idents [.binary op ty (l.ready ty (n + 1)).2.1
      (r.ready ty (l.ready ty (n + 1)).2.2).2.1 ⟨n'⟩] :=
    .cons (List.append_subset.mpr ⟨hleft, hright⟩) rfl (.nil _)
  exact ⟨hl.code.append (hr.code.append (hloadl.append (hloadr.append hoperation))),
    List.nil_subset _⟩

end ThreeAddress

open ThreeAddress

/-- A lowered value is made of the names of its term. -/
theorem Term.lower_madeOf {t : Term} {n n' : Nat} {v : Value} (h : t.lower n = .ok (v, n')) :
    v.MadeOf (t.mentions.map Mention.ident) := by
  induction t generalizing n n' v with
  | literal text => cases h; exact ⟨.nil _, List.nil_subset _⟩
  | var v => cases h; exact ⟨.nil _, List.Subset.refl _⟩
  | binary op lhs rhs ihl ihr =>
    obtain ⟨l, n₁, r, n₂, hl, hr, hop⟩ := lower_binary_ok h
    rw [mentions, List.map_append]
    exact applyOp_madeOf ((ihl hl).mono (List.subset_append_left _ _))
      ((ihr hr).mono (List.subset_append_right _ _)) hop

/-- The names in a value are neither read into nor written. -/
theorem Term.not_isTransfer_of_mem {t : Term} {m : Mention} (h : m ∈ t.mentions) :
    m.isTransfer = false := by
  induction t with
  | literal text => cases h
  | var v => rw [List.mem_singleton.mp h]; rfl
  | binary op lhs rhs ihl ihr =>
    rcases List.mem_append.mp h with h | h
    · exact ihl h
    · exact ihr h

namespace ThreeAddress

/-- Storing a value brings in the name of its target alone. -/
theorem storeValue_computes {v : Value} {idents : List String} {target : VarRef} {n n' : Nat}
    {instrs : List Instr} (h : v.MadeOf idents) (ht : target.ident ∈ idents)
    (hstore : storeValue target v n = .ok (instrs, n')) : ComputesWith idents instrs := by
  have hdst : ∀ {src : Operand} (ty : Ty), src.names ⊆ idents →
      ComputesWith idents [.store ty src (.var target.ident)] := by
    intro src ty hsrc
    refine .cons (List.append_subset.mpr ⟨hsrc, ?_⟩) rfl (.nil _)
    exact List.cons_subset.mpr ⟨ht, List.nil_subset _⟩
  obtain ⟨ty, -, -, -, rfl⟩ | ⟨-, ty, -, hvia⟩ := storeValue_ok hstore
  · exact h.code.append (hdst ty h.location)
  · cases hvia
    have hload : (Instr.store ty v.location (.temp ⟨n + 1⟩)).names ⊆ idents :=
      List.append_subset.mpr ⟨h.location, List.nil_subset _⟩
    exact .cons hload rfl (hdst ty (List.nil_subset _))

/-- What the instructions do with the mentions: they have no other names, and transfer those that are
to be read or written. -/
structure Mentioning (mentions : List Mention) (instrs : List Instr) : Prop where
  names : ∀ i ∈ instrs, i.names ⊆ mentions.map Mention.ident
  transfers : instrs.filterMap Instr.transfer? = mentions.filter Mention.isTransfer

theorem Mentioning.nil : Mentioning [] [] :=
  ⟨fun _ hi => absurd hi List.not_mem_nil, rfl⟩

theorem Mentioning.append {m m' : List Mention} {a b : List Instr} (ha : Mentioning m a)
    (hb : Mentioning m' b) : Mentioning (m ++ m') (a ++ b) := by
  constructor
  · rw [List.map_append]
    refine List.forall_mem_append.mpr ⟨fun i hi => ?_, fun i hi => ?_⟩
    · exact List.subset_append_of_subset_left _ (ha.names i hi)
    · exact List.subset_append_of_subset_right _ (hb.names i hi)
  · rw [List.filterMap_append, List.filter_append, ha.transfers, hb.transfers]

/-- Code that computes mentions names that are not transferred. -/
theorem ComputesWith.mentioning {m : List Mention} {a : List Instr}
    (h : ComputesWith (m.map Mention.ident) a) (hm : ∀ mention ∈ m, mention.isTransfer = false) :
    Mentioning m a := by
  refine ⟨fun i hi => (h i hi).1, ?_⟩
  rw [h.transfers, eq_comm, List.filter_eq_nil_iff]
  exact fun mention hmem => Bool.eq_false_iff.mp (hm mention hmem)

/-- A read is code of its own for each variable. -/
theorem readVars_mentioning {vars : List VarRef} {instrs : List Instr}
    (h : readVars vars = .ok instrs) : Mentioning (vars.map (Mention.mk .read)) instrs := by
  induction vars generalizing instrs with
  | nil => cases h; exact .nil
  | cons v rest ih =>
    rw [readVars] at h
    split at h
    · cases h
    · cases hr : readVars rest with
      | error e => rw [hr] at h; cases h
      | ok more =>
        rw [hr] at h
        cases h
        have hone : Mentioning [⟨.read, v⟩] [.read v.ty v.ident] :=
          ⟨List.forall_mem_singleton.mpr (List.Subset.refl _), rfl⟩
        exact hone.append (ih hr)

/-- A write is code of its own for each variable. -/
theorem writeVars_mentioning (vars : List VarRef) :
    Mentioning (vars.map (Mention.mk .write)) (vars.map fun v => .write v.ty v.ident) := by
  induction vars with
  | nil => exact .nil
  | cons v rest ih =>
    have hone : Mentioning [⟨.write, v⟩] [.write v.ty v.ident] :=
      ⟨List.forall_mem_singleton.mpr (List.Subset.refl _), rfl⟩
    exact hone.append ih

/-- The code of a statement mentions what the statement mentions. -/
theorem lowerStatement_mentioning {statement : Statement} {n n' : Nat} {instrs : List Instr}
    (h : lowerStatement statement n = .ok (instrs, n')) : Mentioning statement.mentions instrs := by
  cases statement with
  | assign target value =>
    obtain ⟨v, m, hv, hstore⟩ := lowerStatement_assign_ok h
    have hvalue := (Term.lower_madeOf hv).mono (List.subset_cons_self target.ident _)
    have hcode : ComputesWith ((Statement.assign target value).mentions.map Mention.ident) instrs :=
      storeValue_computes hvalue List.mem_cons_self hstore
    refine hcode.mentioning ?_
    exact List.forall_mem_cons.mpr ⟨rfl, fun _ hm => Term.not_isTransfer_of_mem hm⟩
  | stringDecl ident literal => cases h; exact .nil
  | read vars => exact readVars_mentioning (lowerStatement_read_ok h).1
  | write vars =>
    cases h
    exact writeVars_mentioning vars

theorem lowerStatements_mentioning {statements : List Statement} {n n' : Nat}
    {instrs : List Instr} (h : lowerStatements statements n = .ok (instrs, n')) :
    Mentioning (treeMentions statements) instrs := by
  induction statements generalizing n instrs with
  | nil => cases h; exact .nil
  | cons statement rest ih =>
    obtain ⟨first, n₁, more, hf, hr, rfl⟩ := lowerStatements_cons h
    exact (lowerStatement_mentioning hf).append (ih hr)

/-- The code of statements has their names and their transfers. -/
theorem Code.ofStatements_mentioning {statements : List Statement} {code : Code}
    (h : Code.ofStatements statements = .ok code) :
    Mentioning (treeMentions statements) code.instrs := by
  obtain ⟨body, hbody, hinstrs⟩ := Code.ofStatements_ok h
  have hquiet : ∀ i : Instr, i.names = [] → i.transfer? = none → Mentioning [] [i] := by
    intro i hi ht
    exact ⟨List.forall_mem_singleton.mpr (hi ▸ List.nil_subset _), by simp [ht]⟩
  have hentry : Mentioning [] [.label "main", .link] :=
    (hquiet (.label "main") rfl rfl).append (hquiet .link rfl rfl)
  have hcode := hentry.append ((lowerStatements_mentioning hbody).append (hquiet .ret rfl rfl))
  rw [hinstrs]
  rwa [List.nil_append, List.append_nil] at hcode

end ThreeAddress

/-! ## Names in target code -/

namespace Target

open ThreeAddress (Temp)

/-- The variable of an operand. -/
def Operand.names : Operand → List String
  | .register _ => []
  | .var ident => [ident]
  | .immediate _ => []

/-- The variables that an instruction works on. A declaration works on none. -/
def Instr.names : Instr → List String
  | .move src dst => src.names ++ dst.names
  | .arith _ _ src _ => src.names
  | .read _ ident => [ident]
  | .write _ ident => [ident]
  | _ => []

/-- The name that an instruction declares. -/
def Instr.declared? : Instr → Option String
  | .var ident => some ident
  | .str ident _ => some ident
  | _ => none

/-- The name whose value the instruction reads or writes. -/
def Instr.transfer? : Instr → Option Mention
  | .read ty ident => some ⟨.read, ident, ty.toTy⟩
  | .write ty ident => some ⟨.write, ident, ty⟩
  | _ => none

/-- Giving registers to temporaries keeps the names. -/
theorem names_renamed (ρ : Temp → Register) (o : ThreeAddress.Operand) :
    (renamed ρ o).names = o.names := by
  cases o <;> rfl

/-- Selection adds no name and declares nothing. -/
theorem image_names (ρ : Temp → Register) {i : ThreeAddress.Instr} {j : Instr}
    (h : j ∈ image ρ i) : j.names ⊆ i.names ∧ j.declared? = none := by
  cases i with
  | store ty src dst =>
    rw [List.mem_singleton.mp h, Instr.names, names_renamed, names_renamed]
    exact ⟨List.Subset.refl _, rfl⟩
  | binary op ty lhs rhs dst =>
    rw [image] at h
    split at h
    · cases h
    · rcases List.mem_pair.mp h with rfl | rfl
      · rw [Instr.names, names_renamed, Operand.names, List.append_nil]
        exact ⟨List.subset_append_left _ _, rfl⟩
      · rw [Instr.names, names_renamed]
        exact ⟨List.subset_append_right _ _, rfl⟩
  | read ty ident =>
    rw [image] at h
    split at h
    · cases h
    · rw [List.mem_singleton.mp h]
      exact ⟨List.Subset.refl _, rfl⟩
  | write ty ident =>
    rw [List.mem_singleton.mp h]
    exact ⟨List.Subset.refl _, rfl⟩
  | label name => cases h
  | link => cases h
  | ret => cases h

/-- Selection keeps each transfer. -/
theorem image_transfers (ρ : Temp → Register) {i : ThreeAddress.Instr} (hi : i.Numeric) :
    (image ρ i).filterMap Instr.transfer? = i.transfer?.toList := by
  cases i with
  | binary op ty lhs rhs dst => cases ty <;> rfl
  | read ty ident =>
    cases ty with
    | int => rfl
    | float => rfl
    | string => exact absurd rfl hi
  | _ => rfl

/-- Selection keeps the reads and writes, in order. -/
theorem flatMap_image_transfers (ρ : Temp → Register) {instrs : List ThreeAddress.Instr}
    (h : ∀ i ∈ instrs, i.Numeric) :
    (instrs.flatMap (image ρ)).filterMap Instr.transfer? =
      instrs.filterMap ThreeAddress.Instr.transfer? := by
  induction instrs with
  | nil => rfl
  | cons i rest ih =>
    obtain ⟨hi, hrest⟩ := List.forall_mem_cons.mp h
    rw [List.flatMap_cons, List.filterMap_append, image_transfers ρ hi, ih hrest,
      List.filterMap_cons]
    cases i.transfer? <;> rfl

end Target

end TinyGen
