import TinyGen.Proofs.Lowering

/-!
# Lowering under a change of names and numbers

Lowering looks at no name and at no number of a temporary. So it commutes with a map of names, and with
starting at other temporaries, which then are shifted in the code that comes out. Both are said at once
by `lowerStatements_relabel`, and `Code.ofStatements_mapNames` is its case for names.

`Code.ofStatements_append` is what the shift is for: the code of statements followed by others is made
of the two codes, where the second has its temporaries after those of the first.
-/

namespace TinyGen

open ThreeAddress

/-! ## Names -/

def VarRef.mapName (name : String → String) (v : VarRef) : VarRef :=
  { v with ident := name v.ident }

/-- The term with its variables renamed. Constants are not names. -/
def Term.mapNames (name : String → String) : Term → Term
  | .literal text => .literal text
  | .var v => .var (v.mapName name)
  | .binary op lhs rhs => .binary op (lhs.mapNames name) (rhs.mapNames name)

/-- The statement with its variables renamed. -/
def Statement.mapNames (name : String → String) : Statement → Statement
  | .assign target value => .assign (target.mapName name) (value.mapNames name)
  | .stringDecl ident literal => .stringDecl (name ident) literal
  | .read vars => .read (vars.map (VarRef.mapName name))
  | .write vars => .write (vars.map (VarRef.mapName name))

def ScopeId.mapName (procedure : String → String) : ScopeId → ScopeId
  | .global => .global
  | .block number => .block number
  | .procedure ident => .procedure (procedure ident)

/-- The error for renamed variables and procedures. -/
def Error.mapNames (name procedure : String → String) : Error → Error
  | .duplicateDeclaration scope ident =>
    .duplicateDeclaration (scope.mapName procedure) (name ident)
  | .undeclaredVariable ident => .undeclaredVariable (name ident)
  | .unsupportedRead ident => .unsupportedRead (name ident)
  | .stringArithmetic operand => .stringArithmetic (name operand)
  | .access path fault => .access path fault
  | .parseTree defect => .parseTree defect

def Fault.mapNames (name procedure : String → String) : Fault → Fault
  | .error e => .error (e.mapNames name procedure)
  | .misuse m => .misuse m

theorem Term.mapNames_id (t : Term) : t.mapNames id = t := by
  induction t with
  | literal text => rfl
  | var v => rfl
  | binary op lhs rhs ihl ihr => rw [mapNames, ihl, ihr]

theorem Statement.mapNames_id (s : Statement) : s.mapNames id = s := by
  have hvars : ∀ vars : List VarRef, vars.map (VarRef.mapName id) = vars :=
    fun vars => List.map_id vars
  cases s with
  | assign target value => rw [mapNames, Term.mapNames_id]; rfl
  | stringDecl ident literal => rfl
  | read vars => rw [mapNames, hvars]
  | write vars => rw [mapNames, hvars]

theorem Fault.mapNames_id (fault : Fault) : fault.mapNames id id = fault := by
  match fault with
  | .misuse m => rfl
  | .error e =>
    cases e with
    | duplicateDeclaration scope ident => cases scope <;> rfl
    | _ => rfl

/-! ## Results -/

section MapBoth

variable {ε ε' α α' β β' : Type} {φ : ε → ε'} {r : α → α'} {q : β → β'}

/-- The result with its error or its value replaced. -/
def mapBoth (φ : ε → ε') (r : α → α') : Except ε α → Except ε' α'
  | .error e => .error (φ e)
  | .ok a => .ok (r a)

theorem mapBoth_bind {x : Except ε α} {x' : Except ε' α'} {y : α → Except ε β}
    {y' : α' → Except ε' β'} (hx : x' = mapBoth φ r x) (hy : ∀ a, y' (r a) = mapBoth φ q (y a)) :
    x' >>= y' = mapBoth φ q (x >>= y) := by
  subst hx
  cases x with
  | error e => rfl
  | ok a => exact hy a

theorem mapBoth_map {x : Except ε α} {x' : Except ε' α'} {f : α → β} {f' : α' → β'}
    (hx : x' = mapBoth φ r x) (hf : ∀ a, f' (r a) = q (f a)) :
    x'.map f' = mapBoth φ q (x.map f) := by
  subst hx
  cases x with
  | error e => rfl
  | ok a => exact congrArg Except.ok (hf a)

theorem mapBoth_mapError {ε₂ ε₂' : Type} {x : Except ε α} {x' : Except ε' α'} {f : ε → ε₂}
    {f' : ε' → ε₂'} {φ₂ : ε₂ → ε₂'} (hx : x' = mapBoth φ r x) (hf : ∀ e, f' (φ e) = φ₂ (f e)) :
    x'.mapError f' = mapBoth φ₂ r (x.mapError f) := by
  subst hx
  cases x with
  | error e => exact congrArg Except.error (hf e)
  | ok a => rfl

/-- A misuse has no names. -/
theorem mapBoth_ofMisuse {x : Except Misuse α} {x' : Except Misuse α'} (hx : x' = mapBoth id r x)
    (name procedure : String → String) :
    Fault.ofMisuse x' = mapBoth (Fault.mapNames name procedure) r (Fault.ofMisuse x) := by
  subst hx
  cases x <;> rfl

end MapBoth

namespace ThreeAddress

/-! ## Names and temporaries of code -/

/-- The temporary `k` places further on. -/
def Temp.shift (k : Nat) (t : Temp) : Temp :=
  ⟨t.number + k⟩

section Relabel

variable (temp : Temp → Temp) (name : String → String)

def Operand.relabel : Operand → Operand
  | .temp t => .temp (temp t)
  | .var ident => .var (name ident)
  | .literal text => .literal text

/-- The instruction with its temporaries and variables replaced. A label is not a variable. -/
def Instr.relabel : Instr → Instr
  | .label text => .label text
  | .link => .link
  | .ret => .ret
  | .store ty src dst => .store ty (src.relabel temp name) (dst.relabel temp name)
  | .binary op ty lhs rhs dst =>
    .binary op ty (lhs.relabel temp name) (rhs.relabel temp name) (temp dst)
  | .read ty ident => .read ty (name ident)
  | .write ty ident => .write ty (name ident)

def Value.relabel (v : Value) : Value :=
  ⟨v.code.map (Instr.relabel temp name), v.location.relabel temp name, v.kind⟩

/-- The text of a constant is not a name, so the type stays. -/
theorem Value.Formed.ty_relabel {v : Value} (h : v.Formed) : (v.relabel temp name).ty = v.ty := by
  cases h <;> rfl

end Relabel

/-- The instruction with its temporaries `k` places further on. -/
def Instr.shift (k : Nat) : Instr → Instr :=
  Instr.relabel (Temp.shift k) id

/-! ## Lowering -/

section Lowering

variable (name procedure : String → String) (k : Nat)

private theorem ready_relabel (v : Value) (ty : Ty) (dst : Nat) :
    (v.relabel (Temp.shift k) name).ready ty (dst + k) =
      ((v.ready ty dst).1.map (Instr.relabel (Temp.shift k) name),
        (v.ready ty dst).2.1.relabel (Temp.shift k) name, (v.ready ty dst).2.2 + k) := by
  obtain ⟨code, location, _ | _⟩ := v
  case typed => rfl
  case constant =>
    simp only [Value.relabel, Value.ready, Nat.add_right_comm dst k 1]
    rfl

/-- The error of an operation has the name of a variable, never the number of a temporary. This is
where it matters that computed values are numbers. -/
theorem applyOp_relabel {op : BinOp} {l r : Value} (h : (op.typedBy l r).Formed) (n : Nat) :
    applyOp op (l.relabel (Temp.shift k) name) (r.relabel (Temp.shift k) name) (n + k) =
      mapBoth (Error.mapNames name procedure)
        (fun result => (result.1.relabel (Temp.shift k) name, result.2 + k)) (applyOp op l r n) := by
  have htyped := BinOp.typedBy_map (Value.relabel (Temp.shift k) name) op l r
  have hsame : (op.typedBy (l.relabel (Temp.shift k) name) (r.relabel (Temp.shift k) name)).ty =
      (op.typedBy l r).ty := by
    rw [htyped, h.ty_relabel]
  by_cases hty : (op.typedBy l r).ty = .string
  · obtain ⟨ref, href⟩ := h.eq_var_of_string hty
    rw [applyOp_of_string hty, applyOp_of_string (hsame.trans hty), htyped, href]
    rfl
  · rw [applyOp_of_number hty, applyOp_of_number (hsame ▸ hty), hsame]
    simp only [Nat.add_right_comm n k 1, ready_relabel, mapBoth]
    simp only [Value.relabel, Value.computed, List.map_append, List.map_cons, List.map_nil]
    rfl

end Lowering

end ThreeAddress

theorem Term.lower_relabel (name procedure : String → String) (k : Nat) (t : Term) (n : Nat) :
    (t.mapNames name).lower (n + k) =
      mapBoth (Error.mapNames name procedure)
        (fun lowered => (lowered.1.relabel (Temp.shift k) name, lowered.2 + k)) (t.lower n) := by
  induction t generalizing n with
  | literal text => rfl
  | var v => rfl
  | binary op lhs rhs ihl ihr =>
    rw [mapNames, lower_binary, lower_binary, ihl]
    cases hl : lhs.lower n with
    | error e => rfl
    | ok left =>
      show (rhs.mapNames name).lower (left.2 + k) >>= _ = mapBoth _ _ (rhs.lower left.2 >>= _)
      rw [ihr]
      cases hr : rhs.lower left.2 with
      | error e => rfl
      | ok right =>
        have hformed : (op.typedBy left.1 right.1).Formed :=
          op.typedBy_of (lower_formed hl) (lower_formed hr)
        exact applyOp_relabel name procedure k hformed right.2

namespace ThreeAddress

variable (name procedure : String → String) (k : Nat)

theorem storeVia_relabel (ty : Ty) (src dst : Operand) (n : Nat) :
    storeVia ty (src.relabel (Temp.shift k) name) (dst.relabel (Temp.shift k) name) (n + k) =
      ((storeVia ty src dst n).1.map (Instr.relabel (Temp.shift k) name),
        (storeVia ty src dst n).2 + k) := by
  simp only [storeVia, Nat.add_right_comm n k 1]
  rfl

theorem storeValue_relabel (target : VarRef) (v : Value) (n : Nat) :
    storeValue (target.mapName name) (v.relabel (Temp.shift k) name) (n + k) =
      mapBoth id (fun stored => (stored.1.map (Instr.relabel (Temp.shift k) name), stored.2 + k))
        (storeValue target v n) := by
  match v with
  | ⟨[], location, .constant⟩ =>
    exact congrArg Except.ok (storeVia_relabel name k target.ty location (.var target.ident) n)
  | ⟨[], location, .typed .float⟩ =>
    exact congrArg Except.ok (storeVia_relabel name k .float location (.var target.ident) n)
  | ⟨[], location, .typed .int⟩ => rfl
  | ⟨[], location, .typed .string⟩ => rfl
  | ⟨i :: rest, location, .constant⟩ => rfl
  | ⟨i :: rest, location, .typed ty⟩ =>
    refine congrArg (fun instrs => Except.ok (instrs, n + k)) ?_
    simp only [Value.relabel, List.map_append]
    rfl

theorem readVars_relabel (temp : Temp → Temp) (vars : List VarRef) :
    readVars (vars.map (VarRef.mapName name)) =
      mapBoth (Error.mapNames name procedure) (List.map (Instr.relabel temp name)) (readVars vars) := by
  induction vars with
  | nil => rfl
  | cons v rest ih =>
    rw [List.map_cons, readVars, readVars]
    by_cases hty : v.ty = .string
    · rw [if_pos hty, if_pos (show (v.mapName name).ty = .string from hty)]
      rfl
    · rw [if_neg hty, if_neg (show (v.mapName name).ty ≠ .string from hty)]
      exact mapBoth_map ih fun _ => rfl

theorem lowerStatement_relabel (statement : Statement) (n : Nat) :
    lowerStatement (statement.mapNames name) (n + k) =
      mapBoth (Fault.mapNames name procedure)
        (fun lowered => (lowered.1.map (Instr.relabel (Temp.shift k) name), lowered.2 + k))
        (lowerStatement statement n) := by
  cases statement with
  | assign target value =>
    rw [Statement.mapNames, lowerStatement_assign, lowerStatement_assign]
    refine mapBoth_bind
      (mapBoth_mapError (Term.lower_relabel name procedure k value n) fun _ => rfl) fun lowered => ?_
    exact mapBoth_ofMisuse (storeValue_relabel name k target lowered.1 lowered.2) name procedure
  | stringDecl ident literal => rfl
  | read vars =>
    rw [Statement.mapNames, lowerStatement_read, lowerStatement_read]
    refine mapBoth_mapError (φ := Error.mapNames name procedure) ?_ fun _ => rfl
    exact mapBoth_map (readVars_relabel name procedure (Temp.shift k) vars) fun _ => rfl
  | write vars =>
    simp only [Statement.mapNames, lowerStatement, mapBoth, List.map_map]
    rfl

/-- Renamed statements, lowered with `k` more temporaries allocated, give the code of the statements
renamed and shifted by `k`. -/
theorem lowerStatements_relabel (statements : List Statement) (n : Nat) :
    lowerStatements (statements.map (Statement.mapNames name)) (n + k) =
      mapBoth (Fault.mapNames name procedure)
        (fun lowered => (lowered.1.map (Instr.relabel (Temp.shift k) name), lowered.2 + k))
        (lowerStatements statements n) := by
  induction statements generalizing n with
  | nil => rfl
  | cons statement rest ih =>
    refine mapBoth_bind (lowerStatement_relabel name procedure k statement n) fun first => ?_
    refine mapBoth_bind (ih first.2) fun more => ?_
    exact congrArg (fun instrs => Except.ok (instrs, more.2 + k)) List.map_append.symm

/-- The code of statements, from their lowering. -/
theorem Code.ofStatements_eq (statements : List Statement) :
    Code.ofStatements statements =
      (lowerStatements statements 0).map fun lowered =>
        ⟨[.label "main", .link] ++ lowered.1 ++ [.ret], lowered.2⟩ := by
  rw [Code.ofStatements]
  cases lowerStatements statements 0 <;> rfl

/-- The code with its variables renamed. -/
def Code.mapNames (code : Code) : Code :=
  { code with instrs := code.instrs.map (Instr.relabel id name) }

/-- The code of renamed statements. -/
theorem Code.ofStatements_mapNames (statements : List Statement) :
    Code.ofStatements (statements.map (Statement.mapNames name)) =
      mapBoth (Fault.mapNames name procedure) (Code.mapNames name) (Code.ofStatements statements) := by
  rw [Code.ofStatements_eq, Code.ofStatements_eq]
  refine mapBoth_map (lowerStatements_relabel name procedure 0 statements 0) fun lowered => ?_
  show Code.mk ([.label "main", .link] ++ lowered.1.map (Instr.relabel id name) ++ [.ret]) lowered.2 = _
  simp only [Code.mapNames, List.map_append]
  rfl

/-! ## Statements one after another -/

theorem lowerStatements_append (a b : List Statement) (n : Nat) :
    lowerStatements (a ++ b) n =
      lowerStatements a n >>= fun first =>
        lowerStatements b first.2 >>= fun more => .ok (first.1 ++ more.1, more.2) := by
  induction a generalizing n with
  | nil =>
    show lowerStatements b n = lowerStatements b n >>= fun more => .ok ([] ++ more.1, more.2)
    cases lowerStatements b n <;> rfl
  | cons statement rest ih =>
    show (lowerStatement statement n >>= fun first => lowerStatements (rest ++ b) first.2 >>= _) =
      (lowerStatement statement n >>= fun first => lowerStatements rest first.2 >>= _) >>= _
    cases lowerStatement statement n with
    | error fault => rfl
    | ok first =>
      show lowerStatements (rest ++ b) first.2 >>= _ = (lowerStatements rest first.2 >>= _) >>= _
      rw [ih]
      cases lowerStatements rest first.2 with
      | error fault => rfl
      | ok second =>
        show (lowerStatements b second.2 >>= _) >>= _ = lowerStatements b second.2 >>= _
        cases lowerStatements b second.2 with
        | error fault => rfl
        | ok third =>
          show Except.ok (first.1 ++ (second.1 ++ third.1), third.2) =
            Except.ok ((first.1 ++ second.1) ++ third.1, third.2)
          rw [List.append_assoc]

theorem lowerStatements_shift (statements : List Statement) :
    lowerStatements statements k =
      (lowerStatements statements 0).map fun lowered =>
        (lowered.1.map (Instr.shift k), lowered.2 + k) := by
  have hnames : statements.map (Statement.mapNames id) = statements := by
    rw [funext Statement.mapNames_id]
    exact List.map_id' statements
  have h := lowerStatements_relabel id id k statements 0
  rw [hnames, Nat.zero_add] at h
  rw [h]
  cases lowerStatements statements 0 with
  | error fault => exact congrArg Except.error fault.mapNames_id
  | ok lowered => rfl

/-- The code of `a ++ b`: the first error of the two, or else the body of `a` and then the body of `b`
with its temporaries after those of `a`. -/
theorem Code.ofStatements_append (a b : List Statement) :
    (∀ fault, Code.ofStatements a = .error fault → Code.ofStatements (a ++ b) = .error fault) ∧
    (∀ first fault, Code.ofStatements a = .ok first → Code.ofStatements b = .error fault →
      Code.ofStatements (a ++ b) = .error fault) ∧
    ∀ first second, Code.ofStatements a = .ok first → Code.ofStatements b = .ok second →
      ∃ bodyA bodyB,
        first.instrs = [.label "main", .link] ++ bodyA ++ [.ret] ∧
        second.instrs = [.label "main", .link] ++ bodyB ++ [.ret] ∧
        Code.ofStatements (a ++ b) =
          .ok ⟨[.label "main", .link] ++ bodyA ++ bodyB.map (Instr.shift first.temps) ++ [.ret],
            first.temps + second.temps⟩ := by
  simp only [Code.ofStatements_eq, lowerStatements_append]
  cases lowerStatements a 0 with
  | error fault => exact ⟨fun _ h => h, fun _ _ h => (nomatch h), fun _ _ h => (nomatch h)⟩
  | ok lowered =>
    obtain ⟨bodyA, temps⟩ := lowered
    -- `b` is lowered where `a` has left off, which shifts its code and changes nothing about its faults
    have hb := lowerStatements_shift temps b
    refine ⟨fun _ h => (nomatch h), fun _ fault _ h => ?_, fun first second hfirst hsecond => ?_⟩
    · show ((lowerStatements b temps >>= _).map _) = _
      rw [hb]
      cases hlow : lowerStatements b 0 with
      | error fault' => rw [hlow] at h; exact h
      | ok lowered => rw [hlow] at h; cases h
    · cases hfirst
      cases hlow : lowerStatements b 0 with
      | error fault => rw [hlow] at hsecond; cases hsecond
      | ok lowered =>
        obtain ⟨bodyB, temps'⟩ := lowered
        rw [hlow] at hb hsecond
        cases hsecond
        refine ⟨bodyA, bodyB, rfl, rfl, ?_⟩
        show ((lowerStatements b temps >>= _).map _) = _
        rw [hb]
        show Except.ok (Code.mk ([.label "main", .link] ++ (bodyA ++ bodyB.map (Instr.shift temps)) ++
          [.ret]) (temps' + temps)) = _
        rw [← List.append_assoc, Nat.add_comm]

/-- Each list loads a constant into its first temporary. In the code of both, the load of `3` goes to
the temporary after the one of `1`. -/
theorem Code.ofStatements_append_loads :
    Code.ofStatements
        ([.assign ⟨"a", .int⟩ (.literal "1")] ++
          [.assign ⟨"c", .int⟩ (.binary .add (.literal "3") (.var ⟨"d", .int⟩))]) =
      .ok ⟨[.label "main", .link,
        .store .int (.literal "1") (.temp ⟨1⟩), .store .int (.temp ⟨1⟩) (.var "a"),
        .store .int (.literal "3") (.temp ⟨2⟩), .binary .add .int (.temp ⟨2⟩) (.var "d") ⟨3⟩,
        .store .int (.temp ⟨3⟩) (.var "c"), .ret], 3⟩ := by
  obtain ⟨bodyA, bodyB, ha, hb, h⟩ := (Code.ofStatements_append
    [.assign ⟨"a", .int⟩ (.literal "1")]
    [.assign ⟨"c", .int⟩ (.binary .add (.literal "3") (.var ⟨"d", .int⟩))]).2.2
    ⟨[.label "main", .link, .store .int (.literal "1") (.temp ⟨1⟩),
      .store .int (.temp ⟨1⟩) (.var "a"), .ret], 1⟩
    ⟨[.label "main", .link, .store .int (.literal "3") (.temp ⟨1⟩),
      .binary .add .int (.temp ⟨1⟩) (.var "d") ⟨2⟩, .store .int (.temp ⟨2⟩) (.var "c"), .ret], 2⟩
    (by cbv) (by cbv)
  have hbodyA := congrArg (fun instrs => (instrs.drop 2).dropLast) ha
  have hbodyB := congrArg (fun instrs => (instrs.drop 2).dropLast) hb
  simp only [List.cons_append, List.nil_append, List.drop_succ_cons, List.drop_zero,
    List.dropLast_concat] at hbodyA hbodyB
  rw [h, ← hbodyA, ← hbodyB]
  rfl

end ThreeAddress

end TinyGen
