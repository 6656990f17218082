import TinyGen.Proofs.Operands

/-!
# Printed target code

Registers, names and constants are apart in a target program, and share one space of texts when it is
printed. Here a printed program is run from its lines alone: a line is cut into words, a word that is a
numeral is a constant, and every other word is the cell of that name.

* `Target.eq_or_registerAndName`: two different operands print alike only if they are a register and
  the name that has its text.
* `Printed.Reflects.run`: printed lines do what the instructions do, if no operands print alike.
* `Compilation.printed_lines`: for a compiled program this is so unless a declared name is that of a
  register in use. `register_named_like_variable` has such a name.
-/

namespace TinyGen

universe u v

namespace Text

/-! ## Words and lines -/

/-- The parts of a text between the occurrences of a character. -/
def cutAt (sep : Char) (text : String) : List String :=
  (text.toList.splitOn sep).map String.ofList

private theorem cutAt_append (sep : Char) (a b : String) :
    cutAt sep (a ++ String.singleton sep ++ b) = cutAt sep a ++ cutAt sep b := by
  have hsplit := List.splitOn_append_cons_self (a := sep) a.toList b.toList
  simp [cutAt, String.toList_append, hsplit]

private theorem cutAt_of_not_mem {sep : Char} {a : String} (h : sep ∉ a.toList) :
    cutAt sep a = [a] := by
  simp [cutAt, List.splitOn_eq_singleton h]

/-- The words of a line. -/
def words (line : String) : List String :=
  cutAt ' ' line

theorem words_append (a b : String) : words (a ++ " " ++ b) = words a ++ words b :=
  cutAt_append ' ' a b

/-- Lines without breaks are found again in their text. -/
theorem cutAt_unlines {lines : List String} (h : ∀ line ∈ lines, '\n' ∉ line.toList) :
    cutAt '\n' (unlines lines) = lines ++ [""] := by
  induction lines with
  | nil => rfl
  | cons line rest ih =>
    obtain ⟨hline, hrest⟩ := List.forall_mem_cons.mp h
    have hcons : unlines (line :: rest) = line ++ String.singleton '\n' ++ unlines rest := by
      simp [unlines, String.join_cons]
    rw [hcons, cutAt_append, cutAt_of_not_mem hline, ih hrest]
    rfl

/-! ## Names and numerals -/

theorem isNumeral_eq_false {text : String} {c : Char} {cs : List Char} (h : text.toList = c :: cs)
    (hsign : c ≠ '-') (hdigit : isDecimalDigit c = false) : isNumeral text = false := by
  have hunsigned : isUnsigned (c :: cs) = false := by
    simp [isUnsigned, isDigits, hdigit]
  rw [isNumeral, h]
  split
  · rename_i he
    exact absurd (List.cons.inj he).1 hsign
  · exact hunsigned

private theorem mem_of_isUnsigned {cs : List Char} (h : isUnsigned cs) {c : Char} (hc : c ∈ cs) :
    c = '.' ∨ isDecimalDigit c := by
  obtain ⟨-, hfraction⟩ := Bool.and_eq_true_iff.mp h
  rw [← List.takeWhile_append_dropWhile (p := isDecimalDigit) (l := cs), List.mem_append] at hc
  rcases hc with hc | hc
  · exact .inr (List.all_eq_true.mp List.all_takeWhile c hc)
  · unfold isFraction at hfraction
    split at hfraction
    · rename_i hnil
      rw [hnil] at hc
      cases hc
    · rename_i digits hpoint
      rw [hpoint] at hc
      have hdigits := List.all_eq_true.mp (Bool.and_eq_true_iff.mp hfraction).2
      exact (List.mem_cons.mp hc).imp_right fun hc => hdigits c hc
    · cases hfraction

/-- A numeral is made of digits, the minus sign and the point. -/
theorem mem_of_isNumeral {text : String} (h : isNumeral text) {c : Char} (hc : c ∈ text.toList) :
    c = '-' ∨ c = '.' ∨ isDecimalDigit c := by
  rw [isNumeral] at h
  split at h
  · rename_i cs he
    rw [he, List.mem_cons] at hc
    exact hc.imp_right fun hc => mem_of_isUnsigned h hc
  · exact .inr (mem_of_isUnsigned h hc)

/-- Below the digits of other scripts there are only those from `0` to `9`. -/
theorem isDecimalDigit_eq_false {c : Char} (hlow : 58 ≤ c.toNat) (hhigh : c.toNat < 0x660) :
    isDecimalDigit c = false := by
  have hzeros : ∀ z ∈ digitZeros, z = 48 ∨ 0x660 ≤ z := by decide
  rw [isDecimalDigit, List.any_eq_false]
  intro z hz
  rcases hzeros z hz with rfl | hz
  · simp; omega
  · simp; omega

/-- Letters, for names. What is no letter: a digit, the minus sign, a blank and a line break. -/
structure Alphabet where
  isLetter : Char → Bool
  not_digit : ∀ c, isLetter c → isDecimalDigit c = false
  not_sign : isLetter '-' = false
  not_blank : isLetter ' ' = false
  not_break : isLetter '\n' = false

namespace Alphabet

private theorem isDecimalDigit_of_isAlpha (c : Char) (h : c.isAlpha) : isDecimalDigit c = false := by
  have hrange : (65 ≤ c.toNat ∧ c.toNat ≤ 90) ∨ (97 ≤ c.toNat ∧ c.toNat ≤ 122) := by
    obtain hupper | hlower := (Bool.or_eq_true _ _).mp h
    · exact .inl (of_decide_eq_true hupper)
    · obtain ⟨hlow, hhigh⟩ := Bool.and_eq_true_iff.mp hlower
      exact .inr ⟨of_decide_eq_true hlow, of_decide_eq_true hhigh⟩
  exact isDecimalDigit_eq_false (by omega) (by omega)

/-- The letters from `A` to `Z` and from `a` to `z`. -/
def latin : Alphabet where
  isLetter := Char.isAlpha
  not_digit := isDecimalDigit_of_isAlpha
  not_sign := by decide
  not_blank := by decide
  not_break := by decide

/-- Whether the text is a letter followed by letters and digits. -/
def isName (α : Alphabet) (text : String) : Bool :=
  match text.toList with
  | [] => false
  | c :: cs => α.isLetter c && cs.all fun d => α.isLetter d || isDecimalDigit d

variable {α : Alphabet} {text : String}

theorem isName_iff : α.isName text ↔
    ∃ c cs, text.toList = c :: cs ∧ α.isLetter c ∧ ∀ d ∈ cs, α.isLetter d ∨ isDecimalDigit d := by
  unfold isName
  split <;> simp_all

theorem isNumeral_of_isName (h : α.isName text) : isNumeral text = false := by
  obtain ⟨c, cs, htext, hc, -⟩ := isName_iff.mp h
  refine isNumeral_eq_false htext ?_ (α.not_digit c hc)
  rintro rfl
  rw [α.not_sign] at hc
  cases hc

theorem not_mem_of_isName (h : α.isName text) {c : Char} (hl : α.isLetter c = false)
    (hd : isDecimalDigit c = false) : c ∉ text.toList := by
  obtain ⟨first, cs, htext, hfirst, hcs⟩ := isName_iff.mp h
  intro hc
  rw [htext, List.mem_cons] at hc
  rcases hc with rfl | hc
  · rw [hl] at hfirst
    cases hfirst
  · have hkind := hcs c hc
    rw [hl, hd] at hkind
    simp at hkind

end Alphabet

end Text

namespace Target

/-! ## Texts of operands -/

theorem Register.toList_text (r : Register) : r.text.toList = 'r' :: Nat.toDigits 10 r.number := by
  rw [Register.text, String.toList_append]
  exact congrArg ('r' :: ·) Nat.toList_repr

theorem Register.text_injective {r r' : Register} (h : r.text = r'.text) : r = r' := by
  have hdigits : Nat.toDigits 10 r.number = Nat.toDigits 10 r'.number := by
    have hlist := congrArg String.toList h
    rw [toList_text, toList_text] at hlist
    exact (List.cons.inj hlist).2
  obtain ⟨n⟩ := r
  obtain ⟨n'⟩ := r'
  have hnumber := congrArg (Nat.ofDigitChars 10 · 0) hdigits
  simp only [Nat.ofDigitChars_ten_toDigits] at hnumber
  rw [hnumber]

/-- Whether the operand is a constant. -/
def Operand.isConstant : Operand → Bool
  | .immediate _ => true
  | _ => false

/-- The text of the operand is one word, and tells whether the operand is a constant. -/
structure Operand.Legible (o : Operand) : Prop where
  no_blank : ' ' ∉ o.text.toList
  no_break : '\n' ∉ o.text.toList
  numeral : Text.isNumeral o.text = o.isConstant

theorem legible_register (r : Register) : (Operand.register r).Legible := by
  have hmem : ∀ c, c ≠ 'r' → c.isDigit = false → c ∉ r.text.toList := by
    intro c hr hdigit hc
    rw [Register.toList_text, List.mem_cons] at hc
    have := Nat.isDigit_of_mem_toDigits (by decide) (by decide) (hc.resolve_left hr)
    rw [hdigit] at this
    cases this
  refine ⟨hmem _ (by decide) (by decide), hmem _ (by decide) (by decide), ?_⟩
  exact Text.isNumeral_eq_false r.toList_text (by decide) (by decide)

theorem legible_immediate {text : String} (h : Text.isNumeral text) :
    (Operand.immediate text).Legible := by
  have hmem : ∀ c, c ≠ '-' → c ≠ '.' → Text.isDecimalDigit c = false → c ∉ text.toList := by
    intro c hsign hpoint hdigit hc
    have := Text.mem_of_isNumeral h hc
    simp [hsign, hpoint, hdigit] at this
  exact ⟨hmem _ (by decide) (by decide) (by decide), hmem _ (by decide) (by decide) (by decide), h⟩

theorem legible_var {α : Text.Alphabet} {x : String} (h : α.isName x) : (Operand.var x).Legible :=
  ⟨α.not_mem_of_isName h α.not_blank (by decide), α.not_mem_of_isName h α.not_break (by decide),
    α.isNumeral_of_isName h⟩

/-- No two operands print alike. -/
def Unambiguous (operands : List Operand) : Prop :=
  ∀ o ∈ operands, ∀ o' ∈ operands, o.text = o'.text → o = o'

/-- A register and the name that has its text, in either order. -/
def RegisterAndName (o o' : Operand) : Prop :=
  ∃ r, (o = .register r ∧ o' = .var r.text) ∨ (o = .var r.text ∧ o' = .register r)

/-- Legible operands that print alike are the same, or a register and a name. -/
theorem eq_or_registerAndName {o o' : Operand} (h : o.Legible) (h' : o'.Legible)
    (he : o.text = o'.text) : o = o' ∨ RegisterAndName o o' := by
  have hconstant : o.isConstant = o'.isConstant := by rw [← h.numeral, ← h'.numeral, he]
  match o, o' with
  | .register r, .register r' => exact .inl (congrArg Operand.register (Register.text_injective he))
  | .register r, .var x => exact .inr ⟨r, .inl ⟨rfl, congrArg Operand.var he.symm⟩⟩
  | .var x, .register r => exact .inr ⟨r, .inr ⟨congrArg Operand.var he, rfl⟩⟩
  | .var x, .var y => exact .inl (congrArg Operand.var he)
  | .immediate a, .immediate b => exact .inl (congrArg Operand.immediate he)
  | .immediate _, .register _ => cases hconstant
  | .immediate _, .var _ => cases hconstant
  | .register _, .immediate _ => cases hconstant
  | .var _, .immediate _ => cases hconstant

/-! ## Words of instructions -/

/-- The words that an instruction is printed as. -/
def Instr.words : Instr → List String
  | .var x => ["var", x]
  | .str x literal => "str" :: x :: Text.words literal
  | .move src dst => ["move", src.text, dst.text]
  | .arith op ty src dst => [opcode op ++ tyLetter ty.toTy, src.text, dst.text]
  | .read ty x => ["sys", "read" ++ tyLetter ty.toTy, x]
  | .write ty x => ["sys", "write" ++ tyLetter ty, x]
  | .halt => ["sys", "halt"]

theorem words_text {i : Instr} (h : ∀ o ∈ i.operands, o.Legible) : Text.words i.text = i.words := by
  have hword : ∀ o ∈ i.operands, Text.words o.text = [o.text] := fun o ho =>
    Text.cutAt_of_not_mem (h o ho).no_blank
  cases i with
  | var x =>
    have hx : Text.words x = [x] := hword (.var x) List.mem_cons_self
    calc Text.words ("var " ++ x) = Text.words "var" ++ Text.words x := Text.words_append "var" x
      _ = ["var", x] := by rw [hx]; rfl
  | str x literal =>
    have hx : Text.words x = [x] := hword (.var x) List.mem_cons_self
    have hname : Text.words ("str " ++ x) = Text.words "str" ++ Text.words x :=
      Text.words_append "str" x
    rw [Instr.text, Text.words_append, hname, hx]
    rfl
  | move src dst =>
    have hsrc := hword src (by simp [Instr.operands])
    have hdst := hword dst (by simp [Instr.operands])
    have hfirst : Text.words ("move " ++ src.text) = Text.words "move" ++ Text.words src.text :=
      Text.words_append "move" src.text
    rw [Instr.text, Text.words_append, hfirst, hsrc, hdst]
    rfl
  | arith op ty src dst =>
    have hsrc := hword src (by simp [Instr.operands])
    have hdst : Text.words dst.text = [dst.text] := hword (.register dst) (by simp [Instr.operands])
    have hop : Text.words (opcode op ++ tyLetter ty.toTy) = [opcode op ++ tyLetter ty.toTy] := by
      cases op <;> cases ty <;> decide
    rw [Instr.text, Text.words_append, Text.words_append, hop, hsrc, hdst]
    rfl
  | read ty x =>
    have hx : Text.words x = [x] := hword (.var x) List.mem_cons_self
    have hcall : Text.words ("sys read" ++ tyLetter ty.toTy) = ["sys", "read" ++ tyLetter ty.toTy] := by
      cases ty <;> decide
    rw [Instr.text, Text.words_append, hcall, hx]
    rfl
  | write ty x =>
    have hx : Text.words x = [x] := hword (.var x) List.mem_cons_self
    have hcall : Text.words ("sys write" ++ tyLetter ty) = ["sys", "write" ++ tyLetter ty] := by
      cases ty <;> decide
    rw [Instr.text, Text.words_append, hcall, hx]
    rfl
  | halt => decide

/-- Only a halt is printed as one. -/
theorem text_eq_halt_iff {i : Instr} (h : ∀ o ∈ i.operands, o.Legible) :
    i.text = "sys halt" ↔ i = .halt := by
  refine ⟨fun he => ?_, fun he => congrArg Instr.text he⟩
  have hwords : i.words = ["sys", "halt"] := by
    rw [← words_text h, he]
    decide
  cases i with
  | halt => rfl
  | _ => simp [Instr.words] at hwords

/-- A line has a break only inside the text of a string. -/
theorem no_break_text {i : Instr} (h : ∀ o ∈ i.operands, o.Legible)
    (hliteral : ∀ x literal, i = .str x literal → '\n' ∉ literal.toList) : '\n' ∉ i.text.toList := by
  have hoperand : ∀ o ∈ i.operands, '\n' ∉ o.text.toList := fun o ho => (h o ho).no_break
  have hletter : ∀ ty, '\n' ∉ (tyLetter ty).toList := by
    intro ty
    cases ty <;> decide
  have hopcode : ∀ op, '\n' ∉ (opcode op).toList := by
    intro op
    cases op <;> decide
  cases i with
  | str x literal =>
    have hx : '\n' ∉ x.toList := hoperand (.var x) List.mem_cons_self
    simp [Instr.text, hx, hliteral x literal rfl]
  | halt => decide
  | _ => simpa [Instr.text, Instr.operands, Operand.text, hletter, hopcode] using hoperand

end Target

/-! ## Running printed lines -/

namespace Printed

variable {V : Type u} {I : Type v} (m : Target.Meaning V I)

/-- Value of a word: a numeral is a constant, and any other word is a name. -/
def value (w : World V I) (word : String) : V :=
  if Text.isNumeral word then m.constant word else w.vars word

/-- Stores a value in the cell of a word. What is stored into a constant is lost. -/
def store (w : World V I) (word : String) (value : V) : World V I :=
  if Text.isNumeral word then w else w.set word value

/-- The operator and the type of an opcode. -/
def operation? (word : String) : Option (BinOp × NumTy) :=
  [("addi", (.add, .int)), ("addr", (.add, .float)), ("subi", (.sub, .int)), ("subr", (.sub, .float)),
    ("muli", (.mul, .int)), ("mulr", (.mul, .float)), ("divi", (.div, .int)),
    ("divr", (.div, .float))].lookup word

/-- The type of a call that reads. -/
def readType? (word : String) : Option NumTy :=
  [("readi", .int), ("readr", .float)].lookup word

/-- The type of a call that writes. -/
def writeType? (word : String) : Option Ty :=
  [("writei", .int), ("writer", .float), ("writes", .string)].lookup word

/-- Executes a system call on the cell of a name. -/
def call (w : World V I) (word x : String) : World V I :=
  match readType? word, writeType? word with
  | some ty, _ => w.read m.toOperations ty.toTy x
  | none, some ty => w.write ty x
  | none, none => w

/-- Executes a line of three words. -/
def execute (w : World V I) (word src dst : String) : World V I :=
  if word = "move" then store w dst (value m w src)
  else if word = "sys" then call m w src dst
  else match operation? word with
    | some (op, ty) => store w dst (m.arith op ty.toTy (value m w dst) (value m w src))
    | none => w

/-- Executes a printed line. A line that is no instruction does nothing. -/
def step (line : String) (w : World V I) : World V I :=
  match Text.words line with
  | [word, src, dst] => execute m w word src dst
  | _ => w

/-- Executes printed lines, up to the first halt. -/
def run : List String → World V I → World V I :=
  runUntil "sys halt" (step m)

theorem execute_operation (op : BinOp) (ty : NumTy) (w : World V I) (src dst : String) :
    execute m w (Target.opcode op ++ Target.tyLetter ty.toTy) src dst =
      store w dst (m.arith op ty.toTy (value m w dst) (value m w src)) := by
  cases op <;> cases ty <;> rfl

theorem call_read (ty : NumTy) (w : World V I) (x : String) :
    call m w ("read" ++ Target.tyLetter ty.toTy) x = w.read m.toOperations ty.toTy x := by
  cases ty <;> rfl

theorem call_write (ty : Ty) (w : World V I) (x : String) :
    call m w ("write" ++ Target.tyLetter ty) x = w.write ty x := by
  cases ty <;> rfl

variable {m} {operands : List Target.Operand} {s : Target.State V I} {w : World V I}

/-- The cells of the world hold what the operands hold, and input and output are the same. -/
structure Reflects (operands : List Target.Operand) (s : Target.State V I) (w : World V I) :
    Prop where
  input : w.input = s.world.input
  output : w.output = s.world.output
  register : ∀ r, .register r ∈ operands → w.vars r.text = s.registers r
  var : ∀ x, .var x ∈ operands → w.vars x = s.world.vars x

/-- The world with a cell for each text of an operand, which holds what the operand holds. -/
def worldOf (operands : List Target.Operand) (s : Target.State V I) : World V I :=
  { s.world with
    vars := fun x =>
      match operands.find? (·.text = x) with
      | some (.register r) => s.registers r
      | _ => s.world.vars x }

namespace Reflects

theorem of_unambiguous (hu : Target.Unambiguous operands) (s : Target.State V I) :
    Reflects operands s (worldOf operands s) := by
  have hfind : ∀ o ∈ operands, operands.find? (·.text = o.text) = some o := by
    intro o ho
    cases hf : operands.find? (·.text = o.text) with
    | none => simpa using List.find?_eq_none.mp hf o ho
    | some o' =>
      have htext : o'.text = o.text := by simpa using List.find?_some hf
      rw [hu o' (List.mem_of_find?_eq_some hf) o ho htext]
  refine ⟨rfl, rfl, fun r hr => ?_, fun x hx => ?_⟩
  · have hr' : operands.find? (·.text = r.text) = some (.register r) := hfind _ hr
    simp only [worldOf, hr']
  · have hx' : operands.find? (·.text = x) = some (.var x) := hfind _ hx
    simp only [worldOf, hx']

theorem value (h : Reflects operands s w) {o : Target.Operand} (ho : o ∈ operands)
    (hl : o.Legible) : Printed.value m w o.text = s.value m o := by
  rw [Printed.value, hl.numeral]
  cases o with
  | register r => exact h.register r ho
  | var x => exact h.var x ho
  | immediate text => rfl

theorem store (h : Reflects operands s w) (hu : Target.Unambiguous operands) {o : Target.Operand}
    (ho : o ∈ operands) (hl : o.Legible) (value : V) :
    Reflects operands (s.store o value) (Printed.store w o.text value) := by
  rw [Printed.store, hl.numeral]
  cases o with
  | register r =>
    refine ⟨h.input, h.output, fun r' hr' => ?_, fun x hx => ?_⟩
    · show (if r'.text = r.text then value else w.vars r'.text) =
        if r' = r then value else s.registers r'
      by_cases hr : r' = r
      · rw [if_pos hr, if_pos (congrArg Target.Register.text hr)]
      · rw [if_neg hr, if_neg fun he => hr (Target.Register.text_injective he), h.register r' hr']
    · show (if x = r.text then value else w.vars x) = s.world.vars x
      have hne : x ≠ r.text := fun he => nomatch hu (.var x) hx (.register r) ho he
      rw [if_neg hne, h.var x hx]
  | var x =>
    refine ⟨h.input, h.output, fun r hr => ?_, fun y hy => ?_⟩
    · show (if r.text = x then value else w.vars r.text) = s.registers r
      have hne : r.text ≠ x := fun he => nomatch hu (.register r) hr (.var x) ho he
      rw [if_neg hne, h.register r hr]
    · show (if y = x then value else w.vars y) = if y = x then value else s.world.vars y
      rw [h.var y hy]
  | immediate text => exact h

theorem read (h : Reflects operands s w) (hu : Target.Unambiguous operands) {x : String}
    (hx : .var x ∈ operands) (hl : (Target.Operand.var x).Legible) (ty : Ty) :
    Reflects operands { s with world := s.world.read m.toOperations ty x }
      (w.read m.toOperations ty x) := by
  have htaken : Reflects operands
      { s with world := { s.world with input := (m.read ty s.world.input).2 } }
      { w with input := (m.read ty s.world.input).2 } :=
    ⟨rfl, h.output, h.register, h.var⟩
  have hstored := htaken.store hu hx hl (m.read ty s.world.input).1
  rw [Printed.store, hl.numeral] at hstored
  rw [World.read, World.read, h.input]
  exact hstored

/-- One instruction, and the line that it is printed as. -/
theorem step (h : Reflects operands s w) (hu : Target.Unambiguous operands)
    (hl : ∀ o ∈ operands, o.Legible) {i : Target.Instr} (hi : i.operands ⊆ operands) :
    Reflects operands (Target.step m i s) (Printed.step m i.text w) := by
  have hwords : Text.words i.text = i.words := Target.words_text fun o ho => hl o (hi ho)
  rw [Printed.step, hwords]
  cases i with
  | var x => exact h
  | str x literal =>
    rw [Target.Instr.words]
    -- A literal can be any number of words. None of these lines is executed.
    match Text.words literal with
    | [] => exact h
    | [_] => exact h
    | _ :: _ :: _ => exact h
  | move src dst =>
    have hsrc : src ∈ operands := hi (by simp [Target.Instr.operands])
    have hdst : dst ∈ operands := hi (by simp [Target.Instr.operands])
    show Reflects operands (s.store dst (s.value m src))
      (Printed.store w dst.text (Printed.value m w src.text))
    rw [h.value hsrc (hl src hsrc)]
    exact h.store hu hdst (hl dst hdst) _
  | arith op ty src dst =>
    have hsrc : src ∈ operands := hi (by simp [Target.Instr.operands])
    have hdst : .register dst ∈ operands := hi (by simp [Target.Instr.operands])
    show Reflects operands _ (execute m w (Target.opcode op ++ Target.tyLetter ty.toTy) src.text dst.text)
    rw [execute_operation, h.value hsrc (hl src hsrc)]
    have hleft : Printed.value m w dst.text = s.registers dst :=
      h.value (o := .register dst) hdst (hl _ hdst)
    rw [hleft]
    exact h.store hu hdst (hl _ hdst) _
  | read ty x =>
    have hx : .var x ∈ operands := hi (by simp [Target.Instr.operands])
    show Reflects operands _ (call m w ("read" ++ Target.tyLetter ty.toTy) x)
    rw [call_read]
    exact h.read hu hx (hl _ hx) ty.toTy
  | write ty x =>
    have hx : .var x ∈ operands := hi (by simp [Target.Instr.operands])
    show Reflects operands _ (call m w ("write" ++ Target.tyLetter ty) x)
    rw [call_write]
    refine ⟨h.input, ?_, h.register, h.var⟩
    show w.output ++ [(ty, w.vars x)] = s.world.output ++ [(ty, s.world.vars x)]
    rw [h.output, h.var x hx]
  | halt => exact h

/-- **Printed lines do what the instructions do**, if their operands do not print alike. -/
theorem run (h : Reflects operands s w) (hu : Target.Unambiguous operands)
    (hl : ∀ o ∈ operands, o.Legible) {instrs : List Target.Instr}
    (hi : ∀ i ∈ instrs, i.operands ⊆ operands) :
    Reflects operands (Target.run m instrs s) (Printed.run m (instrs.map Target.Instr.text) w) := by
  induction instrs generalizing s w with
  | nil => exact h
  | cons i rest ih =>
    obtain ⟨hfirst, hrest⟩ := List.forall_mem_cons.mp hi
    have hhalt := Target.text_eq_halt_iff fun o ho => hl o (hfirst ho)
    rw [Printed.run, List.map_cons, Target.run]
    by_cases hstop : i = .halt
    · rw [runUntil, if_pos hstop, runUntil, if_pos (hhalt.mpr hstop)]
      exact h
    · rw [runUntil_cons hstop, runUntil_cons fun he => hstop (hhalt.mp he)]
      exact ih (h.step hu hl hfirst) hrest

end Reflects

end Printed

/-! ## Printed programs -/

namespace Compilation

open Target

variable {program : ParseTree.Program} (c : Compilation program)

theorem legible {α : Text.Alphabet} (h : ∀ symbol ∈ c.table.allSymbols, α.isName symbol.ident)
    {o : Operand} (ho : o ∈ c.target.operands) : o.Legible := by
  cases o with
  | register r => exact legible_register r
  | var x =>
    obtain ⟨symbol, hsymbol, rfl⟩ := c.var_mem_operands.mp ho
    exact legible_var (h symbol hsymbol)
  | immediate text => exact legible_immediate (c.isNumeral_of_immediate ho)

/-- Operands print alike exactly if a declared name is that of a register in use. -/
theorem unambiguous_iff {α : Text.Alphabet}
    (h : ∀ symbol ∈ c.table.allSymbols, α.isName symbol.ident) :
    Unambiguous c.target.operands ↔
      ∀ symbol ∈ c.table.allSymbols, ∀ r : Register,
        1 ≤ r.number → r.number ≤ c.target.registers → symbol.ident ≠ r.text := by
  constructor
  · intro hu symbol hsymbol r hpos hle he
    have hvar := c.var_mem_operands.mpr ⟨symbol, hsymbol, rfl⟩
    have hregister := c.register_mem_operands.mpr ⟨hpos, hle⟩
    exact nomatch hu _ hvar _ hregister he
  · intro hapart o ho o' ho' he
    have hname : ∀ r : Register, .register r ∈ c.target.operands →
        .var r.text ∉ c.target.operands := by
      intro r hr hx
      obtain ⟨symbol, hsymbol, hident⟩ := c.var_mem_operands.mp hx
      obtain ⟨hpos, hle⟩ := c.register_mem_operands.mp hr
      exact hapart symbol hsymbol r hpos hle hident
    obtain heq | ⟨r, ⟨rfl, rfl⟩ | ⟨rfl, rfl⟩⟩ :=
      eq_or_registerAndName (c.legible h ho) (c.legible h ho') he
    · exact heq
    · exact absurd ho' (hname r ho)
    · exact absurd ho (hname r ho')

/-- If no string has a line break, the lines are those of the printed text. -/
theorem cutAt_unlines_lines {α : Text.Alphabet}
    (h : ∀ symbol ∈ c.table.allSymbols, α.isName symbol.ident)
    (hliteral : ∀ symbol ∈ c.table.allSymbols, ∀ literal, symbol.shape = .str literal →
      '\n' ∉ literal.toList) :
    Text.cutAt '\n' (Text.unlines c.target.lines) = c.target.lines ++ [""] := by
  refine Text.cutAt_unlines (List.forall_mem_map.mpr fun i hi => ?_)
  refine no_break_text (fun o ho => c.legible h (List.mem_flatMap.mpr ⟨i, hi, ho⟩)) ?_
  rintro x literal rfl
  obtain ⟨symbol, hsymbol, rfl⟩ := c.var_mem_operands.mp
    (List.mem_flatMap.mpr ⟨_, hi, List.mem_cons_self⟩)
  obtain ⟨first, hfirst⟩ := c.storedAs hsymbol
  exact hliteral first (List.mem_of_find?_eq_some hfirst.found) literal
    ((hfirst.str_mem_iff literal).mp hi)

/-- **When printed code can be read back.** If the declared names are letters followed by letters and
digits, two operands of a compiled program print alike only if they are a register and the name that
has its text. So the operands are unambiguous exactly if no declared name is that of a register in use,
and in this case the printed lines do what the instructions do, with one cell for each text. The lines
are those of the printed text if no string has a line break. -/
theorem printed_lines (α : Text.Alphabet)
    (h : ∀ symbol ∈ c.table.allSymbols, α.isName symbol.ident) :
    (∀ o ∈ c.target.operands, ∀ o' ∈ c.target.operands, o.text = o'.text →
      o = o' ∨ RegisterAndName o o') ∧
    (Unambiguous c.target.operands ↔
      ∀ symbol ∈ c.table.allSymbols, ∀ k, 1 ≤ k → k ≤ c.target.registers →
        symbol.ident ≠ "r" ++ toString k) ∧
    (Unambiguous c.target.operands →
      ∀ (V : Type u) (I : Type v) (m : Target.Meaning V I) (s : Target.State V I),
        (∃ w, Printed.Reflects c.target.operands s w) ∧
        ∀ w, Printed.Reflects c.target.operands s w →
          Printed.Reflects c.target.operands (Target.run m c.target.instrs s)
            (Printed.run m c.target.lines w)) ∧
    ((∀ symbol ∈ c.table.allSymbols, ∀ literal, symbol.shape = .str literal →
        '\n' ∉ literal.toList) →
      Text.cutAt '\n' (Text.unlines c.target.lines) = c.target.lines ++ [""]) := by
  refine ⟨fun o ho o' ho' => ?_, ?_, fun hu V I m s => ⟨?_, fun w hw => ?_⟩, ?_⟩
  · exact eq_or_registerAndName (c.legible h ho) (c.legible h ho')
  · rw [c.unambiguous_iff h]
    exact forall₂_congr fun symbol _ => ⟨fun ha k => ha ⟨k⟩, fun ha r => ha r.number⟩
  · exact ⟨_, .of_unambiguous hu s⟩
  · exact hw.run hu (fun o ho => c.legible h ho) fun i hi o ho =>
      List.mem_flatMap.mpr ⟨i, hi, ho⟩
  · exact c.cutAt_unlines_lines h

/-- Names that are close to those of the two registers in use, and a string that holds one. -/
theorem printed_lines_near_registers :
    let program : ParseTree.Program :=
      ⟨"p", [.var .int ["r3", "r0", "r01"], .string "R1" "\"r1 r2\""],
        [⟨"main", [], [], [.read ["r3"], .assign "r0" ⟨⟨.atom "r3", []⟩, [(.add, ⟨.atom "2", []⟩)]⟩,
          .write ["r0", "R1"]]⟩]⟩
    ∃ c : Compilation program,
      (∀ symbol ∈ c.table.allSymbols, Text.Alphabet.latin.isName symbol.ident) ∧
      c.target.registers = 2 ∧ Unambiguous c.target.operands ∧
      (∀ (m : Target.Meaning Int (List Int)) (s : Target.State Int (List Int)),
        (∃ w, Printed.Reflects c.target.operands s w) ∧
        ∀ w, Printed.Reflects c.target.operands s w →
          Printed.Reflects c.target.operands (Target.run m c.target.instrs s)
            (Printed.run m ["var r3", "var r0", "var r01", "str R1 \"r1 r2\"", "sys readi r3",
              "move 2 r1", "move r3 r2", "addi r1 r2", "move r2 r0", "sys writei r0",
              "sys writes R1", "sys halt"] w)) := by
  intro program
  let table : ScopeTable := ⟨[(.global, [⟨"r3", .num .int⟩, ⟨"r0", .num .int⟩, ⟨"r01", .num .int⟩,
    ⟨"R1", .str "\"r1 r2\""⟩]), (.procedure "main", [])]⟩
  let statements : List Statement := [.stringDecl "R1" "\"r1 r2\"", .read [⟨"r3", .int⟩],
    .assign ⟨"r0", .int⟩ (.binary .add (.var ⟨"r3", .int⟩) (.literal "2")),
    .write [⟨"r0", .int⟩, ⟨"R1", .string⟩]]
  let c : Compilation program := ⟨table, statements, _, _, rfl, by decide +kernel, by cbv, rfl⟩
  have hnames : ∀ symbol ∈ c.table.allSymbols, Text.Alphabet.latin.isName symbol.ident := by decide
  have hapart : ∀ symbol ∈ c.table.allSymbols, ∀ k, 1 ≤ k → k ≤ c.target.registers →
      symbol.ident ≠ "r" ++ toString k := by
    have hboth : ∀ symbol ∈ c.table.allSymbols, symbol.ident ≠ "r1" ∧ symbol.ident ≠ "r2" := by decide
    intro symbol hsymbol k hpos hle
    obtain rfl | rfl : k = 1 ∨ k = 2 := by
      have htwo : k ≤ 2 := hle
      omega
    · exact (hboth symbol hsymbol).1
    · exact (hboth symbol hsymbol).2
  obtain ⟨-, hiff, hrun, -⟩ := c.printed_lines .latin hnames
  have hu := hiff.mpr hapart
  exact ⟨c, hnames, rfl, hu, hrun hu Int (List Int)⟩

/-- A variable with the name of a register: what it has read is overwritten when the lines are run. -/
theorem register_named_like_variable :
    let program : ParseTree.Program :=
      ⟨"p", [.var .int ["a", "r1"]], [⟨"main", [], [],
        [.read ["r1"], .assign "a" ⟨⟨.atom "2", []⟩, []⟩, .write ["r1"]]⟩]⟩
    let m : Target.Meaning Int (List Int) := { Operations.integers with constant := fun _ => 2 }
    let s : Target.State Int (List Int) := ⟨⟨fun _ => 0, [7], []⟩, fun _ => 0⟩
    ∃ c : Compilation program,
      (∀ symbol ∈ c.table.allSymbols, Text.Alphabet.latin.isName symbol.ident) ∧
      .register ⟨1⟩ ∈ c.target.operands ∧ .var "r1" ∈ c.target.operands ∧
      (Operand.register ⟨1⟩).text = (Operand.var "r1").text ∧
      Printed.Reflects c.target.operands s s.world ∧
      (Target.run m c.target.instrs s).world.output = [(.int, 7)] ∧
      (Printed.run m c.target.lines s.world).output = [(.int, 2)] := by
  intro program m s
  let statements : List Statement :=
    [.read [⟨"r1", .int⟩], .assign ⟨"a", .int⟩ (.literal "2"), .write [⟨"r1", .int⟩]]
  let c : Compilation program := ⟨_, statements, _, _, rfl, rfl, by cbv, rfl⟩
  have hreflects : Printed.Reflects c.target.operands s s.world :=
    ⟨rfl, rfl, fun _ _ => rfl, fun _ _ => rfl⟩
  exact ⟨c, by decide, by decide, by decide, by decide, hreflects, by decide, by decide⟩

end Compilation

end TinyGen
