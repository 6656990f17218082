import TinyGen.ParseTree.Decode
import TinyGen.Proofs.Readers

/-!
# Every representation of a program is decoded

`Program.RepresentedBy` says which JSON values represent a program, with the names, the order and the
defaults of its fields. Records are objects or arrays, variants are objects with one member, or their
name alone where they have no content. Each relation has the number of brackets that may be opened.

`Program.decode_represented`: every text of such a value, however it is written, is decoded to the program.
-/

namespace TinyGen

namespace Json

/-! ## Shapes of values -/

/-- `P` holds of what stands inside a bracket: of the `room` brackets that may be opened, one is. -/
def Opens (room : Nat) (P : Nat → Prop) : Prop :=
  ∃ inner, room = inner + 1 ∧ P inner

/-- A record. -/
def IsStruct (room : Nat) (forms : Nat → List Form) (v : Value) : Prop :=
  Opens room fun room => v.IsRecord (forms room)

/-- An array. -/
def IsArray (room : Nat) (P : Nat → List Value → Prop) (v : Value) : Prop :=
  Opens room fun room => ∃ items, v = .array items ∧ P room items

/-- An array of two items. -/
def IsPair (room : Nat) (P Q : Nat → Value → Prop) (v : Value) : Prop :=
  IsArray room (fun room items => ∃ a b, items = [a, b] ∧ P room a ∧ Q room b) v

/-- A variant with content: an object with its name as the only key. -/
def IsTagged (name : String) (room : Nat) (P : Nat → Value → Prop) (v : Value) : Prop :=
  Opens room fun room => ∃ content, v = .ofMembers [(name, content)] ∧ P room content

/-- A variant without content: its name, alone or with `null`. -/
def IsName (name : String) (room : Nat) (v : Value) : Prop :=
  v = .ofText name ∨ IsTagged name room (fun _ content => content = .null) v

/-- A text. -/
def IsText (text : String) (v : Value) : Prop :=
  v = .ofText text

/-- An array of texts. -/
def IsTexts (texts : List String) (room : Nat) (v : Value) : Prop :=
  IsArray room (fun _ => List.Forall₂ IsText texts) v

/-! ## Ways to write values -/

theorem Padded.self {P : List Char → Prop} {t : List Char} (h : P t) : Padded P t :=
  ⟨[], t, [], blanks_nil, h, blanks_nil, by simp⟩

theorem separated_intercalate (parts : List (List Char)) :
    Separated parts ([','].intercalate parts) := by
  cases parts with
  | nil => exact .inl ⟨rfl, blanks_nil⟩
  | cons part parts => exact .inr ⟨List.cons_ne_nil _ _, rfl⟩

/-- Characters that need no escape are written as they are. -/
theorem pointsText_plain (cs : List Char)
    (h : ∀ c ∈ cs, 0x20 ≤ c.toNat ∧ c ≠ '"' ∧ c ≠ '\\') : PointsText (cs.map Char.toNat) cs := by
  induction cs with
  | nil => exact .nil
  | cons c cs ih =>
    obtain ⟨⟨hcontrol, hquote, hslash⟩, hcs⟩ := List.forall_mem_cons.mp h
    exact .cons (.plain hcontrol hquote hslash) (ih hcs)

theorem written_items {items : List Value} {parts : List (List Char)} {t : List Char}
    (h : WrittenItems items parts) (ht : t = '[' :: ([','].intercalate parts ++ [']'])) :
    Written (.array items) t :=
  ⟨parts, _, h, separated_intercalate parts, ht⟩

theorem written_members {members : List (String × Value)} {parts : List (List Char)} {t : List Char}
    (h : WrittenMembers (members.map fun m => (points m.1, m.2)) parts)
    (ht : t = '\x7b' :: ([','].intercalate parts ++ ['\x7d'])) :
    Written (.ofMembers members) t :=
  ⟨parts, _, h, separated_intercalate parts, ht⟩

end Json

/-! ## Representations of parse trees -/

open Json

def NumTy.RepresentedBy : NumTy → Nat → Value → Prop
  | .int => IsName "INT"
  | .float => IsName "FLOAT"

namespace ParseTree

/-- An additive operator is named by its sign. -/
def AddOp.RepresentedBy : AddOp → Nat → Value → Prop
  | .add => IsName "+"
  | .sub => IsName "-"

/-- A multiplicative operator is named by its sign. -/
def MulOp.RepresentedBy : MulOp → Nat → Value → Prop
  | .mul => IsName "*"
  | .div => IsName "/"

/-- A comparison is named by its sign. -/
def CompOp.RepresentedBy : CompOp → Nat → Value → Prop
  | .less => IsName "<"
  | .greater => IsName ">"
  | .equal => IsName "="
  | .notEqual => IsName "!="
  | .lessEqual => IsName "<="
  | .greaterEqual => IsName ">="

mutual

/-- An expression is an object with its first factor and the others, if any. -/
def Expr.RepresentedBy : Expr → Nat → Value → Prop
  | ⟨first, rest⟩, room, v => IsStruct room (fun room =>
    [.required "first" (first.RepresentedBy room),
     .defaulted "rest" (rest = []) (IsArray room (termsRepresentedBy rest))]) v

/-- A further factor is a pair of its operator and itself. -/
def termsRepresentedBy : List (AddOp × Factor) → Nat → List Value → Prop
  | [], _, items => items = []
  | (op, factor) :: rest, room, items => ∃ item others, items = item :: others ∧
    IsPair room op.RepresentedBy factor.RepresentedBy item ∧ termsRepresentedBy rest room others

/-- A factor is an object with its first primary and the others, if any. -/
def Factor.RepresentedBy : Factor → Nat → Value → Prop
  | ⟨first, rest⟩, room, v => IsStruct room (fun room =>
    [.required "first" (first.RepresentedBy room),
     .defaulted "rest" (rest = []) (IsArray room (productsRepresentedBy rest))]) v

/-- A further primary is a pair of its operator and itself. -/
def productsRepresentedBy : List (MulOp × Primary) → Nat → List Value → Prop
  | [], _, items => items = []
  | (op, primary) :: rest, room, items => ∃ item others, items = item :: others ∧
    IsPair room op.RepresentedBy primary.RepresentedBy item ∧ productsRepresentedBy rest room others

/-- An atom is tagged with its text, and a group with its expression. -/
def Primary.RepresentedBy : Primary → Nat → Value → Prop
  | .atom text, room, v => IsTagged "atom" room (fun _ => IsText text) v
  | .group inner, room, v => IsTagged "group" room inner.RepresentedBy v

end

/-- A condition is an object with its two sides and its comparison. -/
def Cond.RepresentedBy (cond : Cond) (room : Nat) (v : Value) : Prop :=
  IsStruct room (fun room =>
    [.required "lhs" (cond.lhs.RepresentedBy room),
     .required "op" (cond.op.RepresentedBy room),
     .required "rhs" (cond.rhs.RepresentedBy room)]) v

/-- A declaration of variables has their type and names, one of a string its name and text. -/
def Decl.RepresentedBy : Decl → Nat → Value → Prop
  | .var ty idents, room, v => IsTagged "var" room (fun room => IsStruct room fun room =>
    [.required "ty" (ty.RepresentedBy room), .required "idents" (IsTexts idents room)]) v
  | .string ident literal, room, v => IsTagged "string" room (fun room => IsStruct room fun _ =>
    [.required "ident" (IsText ident), .required "literal" (IsText literal)]) v

/-- Declarations are an array, in their order. -/
def declsRepresentedBy (decls : List Decl) (room : Nat) (v : Value) : Prop :=
  IsArray room (fun room => List.Forall₂ (fun decl => decl.RepresentedBy room) decls) v

/-- A parameter is an object with its type and its name. -/
def Param.RepresentedBy (param : Param) (room : Nat) (v : Value) : Prop :=
  IsStruct room (fun room =>
    [.required "ty" (param.ty.RepresentedBy room), .required "ident" (IsText param.ident)]) v

mutual

/-- A statement is tagged with its kind. Empty parts of a branch or loop may be left out. -/
def Stmt.RepresentedBy : Stmt → Nat → Value → Prop
  | .assign target expr, room, v => IsTagged "assign" room (fun room => IsStruct room fun room =>
    [.required "target" (IsText target), .required "expr" (expr.RepresentedBy room)]) v
  | .read idents, room, v => IsTagged "read" room (IsTexts idents) v
  | .write idents, room, v => IsTagged "write" room (IsTexts idents) v
  | .return expr, room, v => IsTagged "return" room expr.RepresentedBy v
  | .ifThen cond decls body elsePart, room, v =>
    IsTagged "if" room (fun room => IsStruct room fun room =>
      [.required "cond" (cond.RepresentedBy room),
       .defaulted "decls" (decls = []) (declsRepresentedBy decls room),
       .defaulted "then" (body = []) (IsArray room (stmtsRepresentedBy body)),
       .defaulted "else" (elsePart = none) (elseRepresentedBy elsePart room)]) v
  | .while cond decls body, room, v => IsTagged "while" room (fun room => IsStruct room fun room =>
    [.required "cond" (cond.RepresentedBy room),
     .defaulted "decls" (decls = []) (declsRepresentedBy decls room),
     .defaulted "body" (body = []) (IsArray room (stmtsRepresentedBy body))]) v

/-- The items of an array of statements, in their order. -/
def stmtsRepresentedBy : List Stmt → Nat → List Value → Prop
  | [], _, items => items = []
  | stmt :: rest, room, items => ∃ item others, items = item :: others ∧
    stmt.RepresentedBy room item ∧ stmtsRepresentedBy rest room others

/-- A missing else part may be written as null. -/
def elseRepresentedBy : Option ElsePart → Nat → Value → Prop
  | none, _, v => v = .null
  | some ⟨decls, body⟩, room, v => IsStruct room (fun room =>
    [.defaulted "decls" (decls = []) (declsRepresentedBy decls room),
     .defaulted "body" (body = []) (IsArray room (stmtsRepresentedBy body))]) v

end

/-- A procedure is an object. All but its name may be left out if empty. -/
def FuncDecl.RepresentedBy (func : FuncDecl) (room : Nat) (v : Value) : Prop :=
  IsStruct room (fun room =>
    [.required "ident" (IsText func.ident),
     .defaulted "params" (func.params = []) (IsArray room fun room =>
       List.Forall₂ (fun param => param.RepresentedBy room) func.params),
     .defaulted "decls" (func.decls = []) (declsRepresentedBy func.decls room),
     .defaulted "body" (func.body = []) (IsArray room (stmtsRepresentedBy func.body))]) v

/-- A program is an object. All but its name may be left out if empty. -/
def Program.RepresentedBy (program : Program) (room : Nat) (v : Value) : Prop :=
  IsStruct room (fun room =>
    [.required "ident" (IsText program.ident),
     .defaulted "decls" (program.decls = []) (declsRepresentedBy program.decls room),
     .defaulted "funcs" (program.funcs = []) (IsArray room fun room =>
       List.Forall₂ (fun func => func.RepresentedBy room) program.funcs)]) v

/-! ## Readers of representations -/

section Fields

variable {τ : Type} {types : List Type} {fields : Fields types} {values : Values types}
  {forms : List Form} {read : Reader τ} {value : τ} {P : Value → Prop}

/-- A member that is required is read where it stands. -/
theorem fits_required {name : String} (hread : ∀ v, P v → Reads read value v)
    (h : Fits fields values forms) :
    Fits (required name read fields) (value, values) (.required name P :: forms) := by
  refine .cons rfl ?_ (fun hnone => ?_) h
  · rintro v ⟨_, ⟨rfl⟩, hv⟩
    exact hread v hv
  · obtain ⟨_, hnone, -⟩ := hnone
    cases hnone

/-- A member that is left out has the value for that, and is read otherwise. -/
theorem fits_defaulted {name : String} {absent : τ} (hread : ∀ v, P v → Reads read value v)
    (h : Fits fields values forms) :
    Fits (defaulted name read absent fields) (value, values)
      (.defaulted name (value = absent) P :: forms) := by
  refine .cons rfl ?_ ?_ h
  · rintro v (⟨hsome, -⟩ | ⟨_, ⟨rfl⟩, hv⟩)
    · cases hsome
    · exact hread v hv
  · rintro (⟨-, rfl⟩ | ⟨_, hnone, -⟩)
    · rfl
    · cases hnone

end Fields

/-- A text is read as itself. -/
theorem reads_isText {s : String} {v : Value} (h : IsText s v) : Reads text s v :=
  h ▸ reads_text s

/-- An array, by the number of brackets that may be opened. -/
theorem reads_isArray {α : Type} {item : Nat → Reader α} {xs : List α} {room : Nat}
    {P : Nat → List Value → Prop} {v : Value} (h : IsArray room P v)
    (hread : ∀ room items, P room items → List.Forall₂ (Reads (item room)) xs items) :
    Reads (list (inside room item)) xs v := by
  obtain ⟨inner, rfl, items, rfl, hitems⟩ := h
  exact reads_list (hread inner items hitems)

/-- An array of texts is read as the texts. -/
theorem reads_texts {texts : List String} {room : Nat} {v : Value} (h : IsTexts texts room v) :
    Reads (readTexts room) texts v :=
  reads_isArray h fun _ _ hitems => hitems.imp fun _ _ => reads_isText

/-- A variant without content, by the number of brackets that may be opened. -/
theorem reads_isName {α : Type} {variants : List (Variant α)} {name : String} {a : α} {room : Nat}
    {v : Value} (h : IsName name room v)
    (hfind : variants.find? (·.name = name) = some ⟨name, .none a⟩) :
    Reads (variant variants (0 < room)) a v := by
  rcases h with rfl | ⟨inner, rfl, _, rfl, rfl⟩
  · exact reads_variant_alone hfind rfl _
  · have hread : Reads (Content.none a).read a .null := reads_unit.map fun _ => a
    simpa using reads_variant hfind hread

/-- A variant with content. -/
theorem reads_isTagged {α : Type} {variants : List (Variant α)} {name : String} {a : α} {room : Nat}
    {P : Nat → Value → Prop} {v : Value} (h : IsTagged name (room + 1) P v) {found : Variant α}
    (hfind : variants.find? (·.name = name) = some found)
    (hread : ∀ w, P room w → Reads found.content.read a w) :
    Reads (variant variants true) a v := by
  obtain ⟨_, ⟨rfl⟩, content, rfl, hcontent⟩ := h
  exact reads_variant hfind (hread content hcontent)

/-- The name of a numeric type is read as the type. -/
theorem numTy_reads {ty : NumTy} {room : Nat} {v : Value} (h : ty.RepresentedBy room v) :
    Reads (readNumTy room) ty v := by
  cases ty with
  | int => exact reads_isName h rfl
  | float => exact reads_isName h rfl

theorem AddOp.reads {op : AddOp} {room : Nat} {v : Value} (h : op.RepresentedBy room v) :
    Reads (readAddOp room) op v := by
  cases op <;> exact reads_isName h rfl

theorem MulOp.reads {op : MulOp} {room : Nat} {v : Value} (h : op.RepresentedBy room v) :
    Reads (readMulOp room) op v := by
  cases op <;> exact reads_isName h rfl

theorem CompOp.reads {op : CompOp} {room : Nat} {v : Value} (h : op.RepresentedBy room v) :
    Reads (readCompOp room) op v := by
  cases op <;> exact reads_isName h rfl

/-- Further factors are read as a list, one bracket further in. -/
theorem readTerms_eq (room : Nat) : readTerms room = list (inside room readTerm) := by
  cases room <;> rfl

theorem readProducts_eq (room : Nat) : readProducts room = list (inside room readProduct) := by
  cases room <;> rfl

theorem readStmts_eq (room : Nat) : readStmts room = list (inside room readStmt) := by
  cases room <;> rfl

mutual

/-- What represents an expression is read as the expression. -/
theorem Expr.reads (expr : Expr) {room : Nat} {v : Value} (h : expr.RepresentedBy room v) :
    Reads (readExpr room) expr v := by
  obtain ⟨first, rest⟩ := expr
  obtain ⟨inner, rfl, hrecord⟩ := h
  rw [readExpr]
  refine reads_record (fits_required (fun w hw => Factor.reads first hw)
    (fits_defaulted (fun w hw => ?_) .nil)) (by simp) hrecord _ _
  rw [readTerms_eq]
  exact reads_isArray hw fun _ _ => terms_read rest

theorem terms_read (terms : List (AddOp × Factor)) {room : Nat} {items : List Value}
    (h : termsRepresentedBy terms room items) : List.Forall₂ (Reads (readTerm room)) terms items := by
  match terms, h with
  | [], h => exact (show items = [] from h) ▸ .nil
  | (op, factor) :: rest, ⟨item, others, he, hitem, hrest⟩ =>
    subst he
    obtain ⟨inner, rfl, _, rfl, a, b, rfl, ha, hb⟩ := hitem
    refine .cons ?_ (terms_read rest hrest)
    rw [readTerm]
    exact reads_pair (AddOp.reads ha) (Factor.reads factor hb)

theorem Factor.reads (factor : Factor) {room : Nat} {v : Value} (h : factor.RepresentedBy room v) :
    Reads (readFactor room) factor v := by
  obtain ⟨first, rest⟩ := factor
  obtain ⟨inner, rfl, hrecord⟩ := h
  rw [readFactor]
  refine reads_record (fits_required (fun w hw => Primary.reads first hw)
    (fits_defaulted (fun w hw => ?_) .nil)) (by simp) hrecord _ _
  rw [readProducts_eq]
  exact reads_isArray hw fun _ _ => products_read rest

theorem products_read (products : List (MulOp × Primary)) {room : Nat} {items : List Value}
    (h : productsRepresentedBy products room items) :
    List.Forall₂ (Reads (readProduct room)) products items := by
  match products, h with
  | [], h => exact (show items = [] from h) ▸ .nil
  | (op, primary) :: rest, ⟨item, others, he, hitem, hrest⟩ =>
    subst he
    obtain ⟨inner, rfl, _, rfl, a, b, rfl, ha, hb⟩ := hitem
    refine .cons ?_ (products_read rest hrest)
    rw [readProduct]
    exact reads_pair (MulOp.reads ha) (Primary.reads primary hb)

theorem Primary.reads (primary : Primary) {room : Nat} {v : Value}
    (h : primary.RepresentedBy room v) : Reads (readPrimary room) primary v := by
  match primary, room, h with
  | .atom text, room + 1, h =>
    rw [readPrimary]
    exact reads_isTagged h rfl fun w hw => (reads_isText hw).map _
  | .group inner, room + 1, h =>
    rw [readPrimary]
    exact reads_isTagged h rfl fun w hw => (Expr.reads inner hw).map _

end

theorem Cond.reads {cond : Cond} {room : Nat} {v : Value} (h : cond.RepresentedBy room v) :
    Reads (readCond room) cond v := by
  obtain ⟨inner, rfl, hrecord⟩ := h
  exact reads_record (fits_required (fun w hw => Expr.reads cond.lhs hw)
    (fits_required (fun w hw => CompOp.reads hw)
      (fits_required (fun w hw => Expr.reads cond.rhs hw) .nil))) (by simp) hrecord _ _

/-- What represents a declaration is read as the declaration. -/
theorem Decl.reads {decl : Decl} {room : Nat} {v : Value} (h : decl.RepresentedBy room v) :
    Reads (readDecl room) decl v := by
  match decl, room, h with
  | .var ty idents, room + 1, h =>
    refine reads_isTagged h rfl fun w hw => ?_
    obtain ⟨inner, rfl, hrecord⟩ := hw
    exact reads_record (fits_required (fun w hw => numTy_reads hw)
      (fits_required (fun w hw => reads_texts hw) .nil)) (by simp) hrecord _ _
  | .string ident literal, room + 1, h =>
    refine reads_isTagged h rfl fun w hw => ?_
    obtain ⟨inner, rfl, hrecord⟩ := hw
    exact reads_record (fits_required (fun w hw => reads_isText hw)
      (fits_required (fun w hw => reads_isText hw) .nil)) (by simp) hrecord _ _

theorem decls_read {decls : List Decl} {room : Nat} {v : Value} (h : declsRepresentedBy decls room v) :
    Reads (readDecls room) decls v :=
  reads_isArray h fun _ _ hitems => hitems.imp fun _ _ => Decl.reads

theorem Param.reads {param : Param} {room : Nat} {v : Value} (h : param.RepresentedBy room v) :
    Reads (readParam room) param v := by
  obtain ⟨inner, rfl, hrecord⟩ := h
  exact reads_record (fits_required (fun w hw => numTy_reads hw)
    (fits_required (fun w hw => reads_isText hw) .nil)) (by simp) hrecord _ _

mutual

/-- What represents a statement is read as the statement. -/
theorem Stmt.reads (stmt : Stmt) {room : Nat} {v : Value} (h : stmt.RepresentedBy room v) :
    Reads (readStmt room) stmt v := by
  match stmt, room, h with
  | .assign target expr, room + 1, h =>
    rw [readStmt]
    refine reads_isTagged h rfl fun w hw => ?_
    obtain ⟨inner, rfl, hrecord⟩ := hw
    exact reads_record (fits_required (fun w hw => reads_isText hw)
      (fits_required (fun w hw => Expr.reads expr hw) .nil)) (by simp) hrecord _ _
  | .read idents, room + 1, h =>
    rw [readStmt]
    exact reads_isTagged h rfl fun w hw => (reads_texts hw).map _
  | .write idents, room + 1, h =>
    rw [readStmt]
    exact reads_isTagged h rfl fun w hw => (reads_texts hw).map _
  | .return expr, room + 1, h =>
    rw [readStmt]
    exact reads_isTagged h rfl fun w hw => (Expr.reads expr hw).map _
  | .ifThen cond decls body elsePart, room + 1, h =>
    rw [readStmt]
    refine reads_isTagged h rfl fun w hw => ?_
    obtain ⟨inner, rfl, hrecord⟩ := hw
    show Reads (readIf (inner + 1)) _ _
    rw [readIf]
    refine reads_record (fits_required (fun w hw => Cond.reads hw)
      (fits_defaulted (fun w hw => decls_read hw) (fits_defaulted (fun w hw => ?_)
        (fits_defaulted (fun w hw => elsePart_reads elsePart hw) .nil)))) (by simp) hrecord _ _
    rw [readStmts_eq]
    exact reads_isArray hw fun _ _ => stmts_read body
  | .while cond decls body, room + 1, h =>
    rw [readStmt]
    refine reads_isTagged h rfl fun w hw => ?_
    obtain ⟨inner, rfl, hrecord⟩ := hw
    show Reads (readWhile (inner + 1)) _ _
    rw [readWhile]
    refine reads_record (fits_required (fun w hw => Cond.reads hw)
      (fits_defaulted (fun w hw => decls_read hw) (fits_defaulted (fun w hw => ?_) .nil)))
      (by simp) hrecord _ _
    rw [readStmts_eq]
    exact reads_isArray hw fun _ _ => stmts_read body

theorem stmts_read (stmts : List Stmt) {room : Nat} {items : List Value}
    (h : stmtsRepresentedBy stmts room items) : List.Forall₂ (Reads (readStmt room)) stmts items := by
  match stmts, h with
  | [], h => exact (show items = [] from h) ▸ .nil
  | stmt :: rest, ⟨item, others, he, hitem, hrest⟩ =>
    subst he
    exact .cons (Stmt.reads stmt hitem) (stmts_read rest hrest)

/-- Null is read as no else part. -/
theorem elsePart_reads (elsePart : Option ElsePart) {room : Nat} {v : Value}
    (h : elseRepresentedBy elsePart room v) : Reads (optional (readElse room)) elsePart v := by
  match elsePart, h with
  | none, h => exact (show v = .null from h) ▸ reads_optional_none _
  | some ⟨decls, body⟩, ⟨inner, he, hrecord⟩ =>
    subst he
    refine reads_optional_some ?_ hrecord
    rw [readElse]
    refine reads_record (fits_defaulted (fun w hw => decls_read hw)
      (fits_defaulted (fun w hw => ?_) .nil)) (by simp) hrecord _ _
    rw [readStmts_eq]
    exact reads_isArray hw fun _ _ => stmts_read body

end

/-- What represents a procedure is read as the procedure. -/
theorem FuncDecl.reads {func : FuncDecl} {room : Nat} {v : Value} (h : func.RepresentedBy room v) :
    Reads (readFuncDecl room) func v := by
  obtain ⟨inner, rfl, hrecord⟩ := h
  have hparams : ∀ w, IsArray inner (fun room =>
      List.Forall₂ (fun param : Param => param.RepresentedBy room) func.params) w →
        Reads (list (inside inner readParam)) func.params w := fun w hw =>
    reads_isArray hw fun _ _ hitems => hitems.imp fun _ _ => Param.reads
  have hbody : ∀ w, IsArray inner (stmtsRepresentedBy func.body) w →
      Reads (readStmts inner) func.body w := by
    intro w hw
    rw [readStmts_eq]
    exact reads_isArray hw fun _ _ => stmts_read func.body
  exact reads_record (fits_required (fun w hw => reads_isText hw) (fits_defaulted hparams
    (fits_defaulted (fun w hw => decls_read hw) (fits_defaulted hbody .nil)))) (by simp) hrecord _ _

/-- What represents a program is read as the program. -/
theorem Program.reads {program : Program} {room : Nat} {v : Value}
    (h : program.RepresentedBy room v) : Reads (readProgram room) program v := by
  obtain ⟨inner, rfl, hrecord⟩ := h
  have hfuncs : ∀ w, IsArray inner (fun room =>
      List.Forall₂ (fun func : FuncDecl => func.RepresentedBy room) program.funcs) w →
        Reads (list (inside inner readFuncDecl)) program.funcs w := fun w hw =>
    reads_isArray hw fun _ _ hitems => hitems.imp fun _ _ => FuncDecl.reads
  exact reads_record (fits_required (fun w hw => reads_isText hw)
    (fits_defaulted (fun w hw => decls_read hw) (fits_defaulted hfuncs .nil))) (by simp) hrecord _ _

/-- **Every text that represents a program is decoded to it**: a text of a value that represents the
program with at most 127 brackets open at once, and blanks around it. -/
theorem Program.decode_represented {program : Program} {v : Value} (h : program.RepresentedBy 127 v)
    {text : String} (htext : Padded (Written v) text.toList) :
    Program.decode text = .ok program := by
  obtain ⟨ws, t, ws', hws, ht, hws', he⟩ := htext
  have hread : readProgram maxDepth text.toList = .ok (program, ws') := by
    rw [he]
    exact Program.reads h t ht ws hws ws'
  have hend : skipBlank ws' = [] := by
    simpa [skipBlank] using skipBlank_append hws' []
  simp only [decode, ofChars, hread, hend]
  rfl

/-- Another member before the fields with a number and a lone surrogate in it, an escaped key, a record as
an array, a variant with `null`, a field that is left out and an escaped pair of surrogates. -/
theorem Program.decode_escaped_members :
    let text := "\n\x7b\"note\":[-0.5e1, \"\\uD800\"],\"\\u0064ecls\" :[\x7b\"var\":" ++
      "[\x7b\"INT\":null\x7d,[\"x\"]]\x7d],\"ident\":\"\\uD83D\\uDE00\"\x7d "
    ∃ v, Program.RepresentedBy ⟨"😀", [.var .int ["x"]], []⟩ 127 v ∧ Padded (Written v) text.toList ∧
      Program.decode text = .ok ⟨"😀", [.var .int ["x"]], []⟩ := by
  intro text
  let note : Value := .array [.number ['-', '0', '.', '5', 'e', '1'], .string [0xD800]]
  let decl : Value := .ofMembers [("var", .array [.ofMembers [("INT", .null)], .array [.ofText "x"]])]
  let v : Value := .ofMembers [("note", note), ("decls", .array [decl]), ("ident", .ofText "😀")]
  have hdecl : (Decl.var .int ["x"]).RepresentedBy 125 decl :=
    ⟨124, rfl, _, rfl, 123, rfl, .array ⟨⟨_, rfl, .inr ⟨122, rfl, _, rfl, rfl⟩⟩,
      ⟨_, rfl, 122, rfl, _, rfl, .cons rfl .nil⟩, rfl⟩⟩
  have hprogram : Program.RepresentedBy ⟨"😀", [.var .int ["x"]], []⟩ 127 v := by
    refine ⟨126, rfl, .object ?_⟩
    simp only [MembersFit, List.forall_mem_cons]
    exact ⟨⟨some _, rfl, _, rfl, rfl⟩,
      ⟨some _, rfl, .inr ⟨_, rfl, 125, rfl, _, rfl, .cons hdecl .nil⟩⟩,
      ⟨none, rfl, .inl ⟨rfl, trivial⟩⟩, by simp⟩
  have hnumber : NumberText ['-', '0', '.', '5', 'e', '1'] :=
    ⟨['-'], ['0'], ['.', '5'], ['e', '1'], by simp, .inl rfl, .inr ⟨['5'], by simp [Digits], rfl⟩,
      .inr ⟨'e', [], ['1'], by simp, by simp, by simp [Digits], rfl⟩, rfl⟩
  have hlone : StringText [0xD800] "\"\\uD800\"".toList :=
    ⟨_, .cons (.hex (@HexText.digits 13 8 0 0 _ _ _ _ (.inr rfl) (.inl rfl) (.inl rfl) (.inl rfl)))
      .nil, rfl⟩
  have hkey : StringText (points "decls") "\"\\u0064ecls\"".toList :=
    ⟨_, .cons (.hex (@HexText.digits 0 0 6 4 _ _ _ _ (.inl rfl) (.inl rfl) (.inl rfl) (.inl rfl)))
      (pointsText_plain "ecls".toList (by simp)), rfl⟩
  have hident : StringText (points "😀") "\"\\uD83D\\uDE00\"".toList := by
    have hhigh : HexText 0xD83D ['D', '8', '3', 'D'] :=
      @HexText.digits 13 8 3 13 _ _ _ _ (.inr rfl) (.inl rfl) (.inl rfl) (.inr rfl)
    have hlow : HexText 0xDE00 ['D', 'E', '0', '0'] :=
      @HexText.digits 13 14 0 0 _ _ _ _ (.inr rfl) (.inr rfl) (.inl rfl) (.inl rfl)
    have hpoints : points "😀" = [0x10000 + (0xD83D - 0xD800) * 0x400 + (0xDE00 - 0xDC00)] := by decide
    rw [hpoints]
    exact ⟨_, .cons (.pair hhigh hlow (by decide) (by decide)) .nil, rfl⟩
  have hplain (s : String) (h : ∀ c ∈ s.toList, 0x20 ≤ c.toNat ∧ c ≠ '"' ∧ c ≠ '\\') :
      Padded (StringText (points s)) ('"' :: (s.toList ++ ['"'])) :=
    .self ⟨_, pointsText_plain s.toList h, rfl⟩
  have hnoteText : Written note "[-0.5e1, \"\\uD800\"]".toList :=
    written_items ⟨_, _, .self ⟨hnumber, rfl⟩,
      ⟨_, _, ⟨[' '], _, [], by simp [Blanks], hlone, blanks_nil, rfl⟩, rfl, rfl⟩, rfl⟩ rfl
  have hdeclText : Written decl "\x7b\"var\":[\x7b\"INT\":null\x7d,[\"x\"]]\x7d".toList :=
    written_members ⟨_, _, _, hplain "var" (by simp), .self (written_items
      ⟨_, _, .self (written_members ⟨_, _, _, hplain "INT" (by simp), .self rfl, rfl, rfl⟩ rfl),
        ⟨_, _, .self (written_items ⟨_, _, hplain "x" (by simp), rfl, rfl⟩ rfl), rfl, rfl⟩, rfl⟩ rfl),
          rfl, rfl⟩ rfl
  have htext : Padded (Written v) text.toList :=
    ⟨['\n'], _, [' '], by simp [Blanks], written_members
      ⟨_, _, _, hplain "note" (by simp), .self hnoteText,
        ⟨_, _, _, ⟨[], _, [' '], blanks_nil, hkey, by simp [Blanks], rfl⟩,
          .self (written_items ⟨_, _, .self hdeclText, rfl, rfl⟩ rfl),
          ⟨_, _, _, hplain "ident" (by simp), .self hident, rfl, rfl⟩, rfl⟩, rfl⟩ rfl,
      by simp [Blanks], by decide +kernel⟩
  exact ⟨v, hprogram, htext, Program.decode_represented hprogram htext⟩

end ParseTree

end TinyGen
