import TinyGen.Statement.Builder

/-!
# Numerals

`Text.DecimalDigit` is the class of decimal digits as the Unicode standard lists it, in ranges.
`Text.Numeral` has the parts of a numeral: a sign, the digits before the point, and those after it
if there is a point. The texts that are taken for numbers are exactly the written forms of numerals
(`Text.isNumeral_iff`). Such a number is a `FLOAT` if it has a point, and an `INT` otherwise
(`Text.Numeral.ofLiteral_text`).

Main statement: `Statement.Builder.raise_atom`. In an assignment, a numeral is a constant, and every
other text is the name of a variable.
-/

namespace TinyGen

namespace Text

/-- First and last code point of each range of decimal digits: the general category Nd of Unicode
16. -/
def digitRanges : List (Nat × Nat) :=
  [(0x0030, 0x0039), (0x0660, 0x0669), (0x06f0, 0x06f9), (0x07c0, 0x07c9), (0x0966, 0x096f),
   (0x09e6, 0x09ef), (0x0a66, 0x0a6f), (0x0ae6, 0x0aef), (0x0b66, 0x0b6f), (0x0be6, 0x0bef),
   (0x0c66, 0x0c6f), (0x0ce6, 0x0cef), (0x0d66, 0x0d6f), (0x0de6, 0x0def), (0x0e50, 0x0e59),
   (0x0ed0, 0x0ed9), (0x0f20, 0x0f29), (0x1040, 0x1049), (0x1090, 0x1099), (0x17e0, 0x17e9),
   (0x1810, 0x1819), (0x1946, 0x194f), (0x19d0, 0x19d9), (0x1a80, 0x1a89), (0x1a90, 0x1a99),
   (0x1b50, 0x1b59), (0x1bb0, 0x1bb9), (0x1c40, 0x1c49), (0x1c50, 0x1c59), (0xa620, 0xa629),
   (0xa8d0, 0xa8d9), (0xa900, 0xa909), (0xa9d0, 0xa9d9), (0xa9f0, 0xa9f9), (0xaa50, 0xaa59),
   (0xabf0, 0xabf9), (0xff10, 0xff19), (0x104a0, 0x104a9), (0x10d30, 0x10d39), (0x10d40, 0x10d49),
   (0x11066, 0x1106f), (0x110f0, 0x110f9), (0x11136, 0x1113f), (0x111d0, 0x111d9),
   (0x112f0, 0x112f9), (0x11450, 0x11459), (0x114d0, 0x114d9), (0x11650, 0x11659),
   (0x116c0, 0x116c9), (0x116d0, 0x116e3), (0x11730, 0x11739), (0x118e0, 0x118e9),
   (0x11950, 0x11959), (0x11bf0, 0x11bf9), (0x11c50, 0x11c59), (0x11d50, 0x11d59),
   (0x11da0, 0x11da9), (0x11f50, 0x11f59), (0x16130, 0x16139), (0x16a60, 0x16a69),
   (0x16ac0, 0x16ac9), (0x16b50, 0x16b59), (0x16d70, 0x16d79), (0x1ccf0, 0x1ccf9),
   (0x1d7ce, 0x1d7ff), (0x1e140, 0x1e149), (0x1e2f0, 0x1e2f9), (0x1e4f0, 0x1e4f9),
   (0x1e5f1, 0x1e5fa), (0x1e950, 0x1e959), (0x1fbf0, 0x1fbf9)]

/-- A decimal digit of some script. -/
def DecimalDigit (c : Char) : Prop :=
  ∃ range ∈ digitRanges, range.1 ≤ c.toNat ∧ c.toNat ≤ range.2

instance : DecidablePred DecimalDigit :=
  fun c => inferInstanceAs (Decidable (∃ range ∈ digitRanges, range.1 ≤ c.toNat ∧ c.toNat ≤ range.2))

/-- One or more decimal digits. -/
structure Digits where
  chars : List Char
  ne_nil : chars ≠ []
  isDigit : ∀ c ∈ chars, DecimalDigit c

/-- A number as it is written: the sign, the digits before the point, and the point with the digits
after it. -/
structure Numeral where
  negative : Bool
  whole : Digits
  fraction? : Option Digits

/-- The point and the digits after it. -/
def fractionChars : Option Digits → List Char
  | none => []
  | some digits => '.' :: digits.chars

namespace Numeral

/-- The numeral without its sign. -/
def unsignedChars (n : Numeral) : List Char :=
  n.whole.chars ++ fractionChars n.fraction?

/-- The written form. -/
def text (n : Numeral) : String :=
  .ofList (if n.negative then '-' :: n.unsignedChars else n.unsignedChars)

end Numeral

/-! ## Digits -/

/-- The zeros of the runs of ten that a range is made of. -/
def zerosIn (range : Nat × Nat) : List Nat :=
  (List.range ((range.2 + 1 - range.1) / 10)).map (range.1 + 10 * ·)

private theorem digitZeros_eq : digitZeros = digitRanges.flatMap zerosIn := by decide

private theorem exists_mem_zerosIn {range : Nat × Nat} (hten : (range.2 + 1 - range.1) % 10 = 0)
    {n : Nat} :
    (∃ z ∈ zerosIn range, z ≤ n ∧ n < z + 10) ↔ range.1 ≤ n ∧ n ≤ range.2 := by
  constructor
  · rintro ⟨z, hz, hle, hlt⟩
    obtain ⟨i, hi, rfl⟩ := List.mem_map.mp hz
    rw [List.mem_range] at hi
    omega
  · rintro ⟨hle, hlt⟩
    refine ⟨range.1 + 10 * ((n - range.1) / 10), ?_, by omega, by omega⟩
    refine List.mem_map.mpr ⟨(n - range.1) / 10, ?_, rfl⟩
    rw [List.mem_range]
    omega

/-- The runs of ten digits make up the ranges. -/
theorem isDecimalDigit_iff {c : Char} : isDecimalDigit c = true ↔ DecimalDigit c := by
  have hten : ∀ range ∈ digitRanges, (range.2 + 1 - range.1) % 10 = 0 := by decide
  have hany : isDecimalDigit c = true ↔ ∃ z ∈ digitZeros, z ≤ c.toNat ∧ c.toNat < z + 10 := by
    simp [isDecimalDigit]
  rw [hany, digitZeros_eq, DecimalDigit]
  simp only [List.mem_flatMap]
  constructor
  · rintro ⟨z, ⟨range, hr, hz⟩, hc⟩
    exact ⟨range, hr, (exists_mem_zerosIn (hten range hr)).mp ⟨z, hz, hc⟩⟩
  · rintro ⟨range, hr, hc⟩
    obtain ⟨z, hz, hin⟩ := (exists_mem_zerosIn (hten range hr)).mpr hc
    exact ⟨z, ⟨range, hr, hz⟩, hin⟩

/-- The digits from `0` to `9` are decimal digits. -/
theorem DecimalDigit.of_isDigit {c : Char} (h : c.isDigit) : DecimalDigit c := by
  rw [Char.isDigit, Bool.and_eq_true, decide_eq_true_iff, decide_eq_true_iff] at h
  exact ⟨(0x0030, 0x0039), List.mem_cons_self, h.1, h.2⟩

theorem not_decimalDigit_sign : ¬ DecimalDigit '-' := by decide

theorem not_decimalDigit_point : ¬ DecimalDigit '.' := by decide

theorem not_decimalDigit_lineBreak : ¬ DecimalDigit '\n' := by decide

theorem Digits.isDecimalDigit (d : Digits) : ∀ c ∈ d.chars, Text.isDecimalDigit c = true :=
  fun c hc => isDecimalDigit_iff.mpr (d.isDigit c hc)

theorem isDigits_iff {cs : List Char} : isDigits cs = true ↔ ∃ d : Digits, d.chars = cs := by
  constructor
  · intro h
    obtain ⟨hne, hall⟩ := Bool.and_eq_true_iff.mp h
    have hdigit := fun c hc => isDecimalDigit_iff.mp (List.all_eq_true.mp hall c hc)
    exact ⟨⟨cs, by simpa using hne, hdigit⟩, rfl⟩
  · rintro ⟨d, rfl⟩
    simpa [isDigits, d.ne_nil] using d.isDecimalDigit

theorem isFraction_iff {cs : List Char} :
    isFraction cs = true ↔ ∃ fraction?, fractionChars fraction? = cs := by
  constructor
  · intro h
    unfold isFraction at h
    split at h
    · exact ⟨none, rfl⟩
    · obtain ⟨d, rfl⟩ := isDigits_iff.mp h
      exact ⟨some d, rfl⟩
    · cases h
  · rintro ⟨_ | d, rfl⟩
    · rfl
    · exact isDigits_iff.mpr ⟨d, rfl⟩

/-! ## Numerals -/

/-- The digits before the point end where the fraction starts: a point is no digit. -/
private theorem takeWhile_unsigned (whole : Digits) (fraction? : Option Digits) :
    (whole.chars ++ fractionChars fraction?).takeWhile isDecimalDigit = whole.chars := by
  have hfraction : (fractionChars fraction?).takeWhile isDecimalDigit = [] := by
    cases fraction? with
    | none => rfl
    | some d =>
      rw [fractionChars, List.takeWhile_cons_of_neg]
      rw [isDecimalDigit_iff]
      exact not_decimalDigit_point
  rw [List.takeWhile_append_of_pos whole.isDecimalDigit, hfraction, List.append_nil]

private theorem dropWhile_unsigned (whole : Digits) (fraction? : Option Digits) :
    (whole.chars ++ fractionChars fraction?).dropWhile isDecimalDigit =
      fractionChars fraction? := by
  have hboth := List.takeWhile_append_dropWhile (p := isDecimalDigit)
    (l := whole.chars ++ fractionChars fraction?)
  rw [takeWhile_unsigned] at hboth
  exact List.append_cancel_left hboth

theorem isUnsigned_iff {cs : List Char} :
    isUnsigned cs = true ↔ ∃ (whole : Digits) (fraction? : Option Digits),
      whole.chars ++ fractionChars fraction? = cs := by
  constructor
  · intro h
    obtain ⟨hwhole, hfraction⟩ := Bool.and_eq_true_iff.mp h
    obtain ⟨whole, hw⟩ := isDigits_iff.mp hwhole
    obtain ⟨fraction?, hf⟩ := isFraction_iff.mp hfraction
    exact ⟨whole, fraction?, by rw [hw, hf, List.takeWhile_append_dropWhile]⟩
  · rintro ⟨whole, fraction?, rfl⟩
    rw [isUnsigned, takeWhile_unsigned, dropWhile_unsigned, Bool.and_eq_true]
    exact ⟨isDigits_iff.mpr ⟨whole, rfl⟩, isFraction_iff.mpr ⟨fraction?, rfl⟩⟩

/-- A numeral without its sign does not start like one with a sign. -/
theorem Numeral.unsignedChars_ne (n : Numeral) (cs : List Char) : n.unsignedChars ≠ '-' :: cs := by
  intro h
  obtain ⟨c, rest, hwhole⟩ := List.exists_cons_of_ne_nil n.whole.ne_nil
  rw [unsignedChars, hwhole] at h
  have hsign : '-' ∈ n.whole.chars := by
    rw [hwhole, (List.cons.inj h).1]
    exact List.mem_cons_self
  exact not_decimalDigit_sign (n.whole.isDigit _ hsign)

theorem isNumeral_iff {text : String} : isNumeral text = true ↔ ∃ n : Numeral, n.text = text := by
  constructor
  · intro h
    rw [← String.ofList_toList (s := text)]
    unfold isNumeral at h
    split at h
    · rename_i cs hcs
      obtain ⟨whole, fraction?, rfl⟩ := isUnsigned_iff.mp h
      exact ⟨⟨true, whole, fraction?⟩, congrArg String.ofList hcs.symm⟩
    · obtain ⟨whole, fraction?, hcs⟩ := isUnsigned_iff.mp h
      exact ⟨⟨false, whole, fraction?⟩, congrArg String.ofList hcs⟩
  · rintro ⟨n, rfl⟩
    have hunsigned : isUnsigned n.unsignedChars = true :=
      isUnsigned_iff.mpr ⟨n.whole, n.fraction?, rfl⟩
    cases hsign : n.negative with
    | true => simpa [isNumeral, Numeral.text, hsign] using hunsigned
    | false =>
      simp only [isNumeral, Numeral.text, hsign, String.toList_ofList]
      split
      · rename_i cs hcs
        exact absurd hcs (n.unsignedChars_ne cs)
      · exact hunsigned

theorem Numeral.point_mem_iff (n : Numeral) : '.' ∈ n.text.toList ↔ n.fraction?.isSome = true := by
  have hwhole : '.' ∉ n.whole.chars := fun h => not_decimalDigit_point (n.whole.isDigit _ h)
  cases hf : n.fraction? <;> cases hs : n.negative <;>
    simp [text, unsignedChars, hs, hf, fractionChars, hwhole]

/-- A constant is a `FLOAT` exactly if it has digits after a point. -/
theorem Numeral.ofLiteral_text (n : Numeral) :
    Ty.ofLiteral n.text = if n.fraction?.isSome then .float else .int := by
  simp only [Ty.ofLiteral, n.point_mem_iff]

end Text

/-! ## Atoms -/

namespace Statement.Builder

variable {b : Builder} {a : OpenAssign} {text : String}

theorem raise_atom_of_numeral (ha : b.assign = some a) (h : Text.isNumeral text = true) :
    b.raise (.enterAtom text) = .ok { b with assign := some (a.pushOperand (.literal text)) } := by
  show b.enterAtom text = _
  simp only [enterAtom, operand, ha, h, ↓reduceIte]

theorem raise_atom_of_declared {symbol : Symbol} (ha : b.assign = some a)
    (h : Text.isNumeral text = false) (hl : b.table.lookup? b.scopes.visible text = some symbol) :
    b.raise (.enterAtom text) =
      .ok { b with assign := some (a.pushOperand (.var ⟨symbol.ident, symbol.ty⟩)) } := by
  show b.enterAtom text = _
  simp [enterAtom, operand, resolve, ha, h, hl, Except.map]

theorem raise_atom_of_undeclared (ha : b.assign = some a) (h : Text.isNumeral text = false)
    (hl : b.table.lookup? b.scopes.visible text = none) :
    b.raise (.enterAtom text) = .stop b (.error (.undeclaredVariable text)) := by
  show b.enterAtom text = _
  simp [enterAtom, operand, resolve, ha, h, hl, Except.map]

theorem isNumeral_of_raise_atom (ha : b.assign = some a) {literal : String}
    (h : b.raise (.enterAtom text) =
      .ok { b with assign := some (a.pushOperand (.literal literal)) }) :
    Text.isNumeral text = true := by
  cases hnumeral : Text.isNumeral text with
  | true => rfl
  | false =>
    cases hl : b.table.lookup? b.scopes.visible text with
    | none =>
      rw [raise_atom_of_undeclared ha hnumeral hl] at h
      cases congrArg Step.fault h
    | some symbol =>
      rw [raise_atom_of_declared ha hnumeral hl] at h
      simp [Step.ok, OpenAssign.pushOperand] at h

/-- **Numerals are told from names exactly.** In an open assignment, an atom becomes a constant if
it is a numeral and only then. The constant is a `FLOAT` if the numeral has a fraction and an `INT`
otherwise. Every other text is looked up, whatever characters it has. The digits from `0` to `9` are
decimal digits; a minus sign, a point and a line break are not. -/
theorem raise_atom (ha : b.assign = some a) (text : String) :
    (b.raise (.enterAtom text) = .ok { b with assign := some (a.pushOperand (.literal text)) } ↔
      ∃ n : Text.Numeral, n.text = text) ∧
    (∀ n : Text.Numeral, n.text = text →
      Ty.ofLiteral text = if n.fraction?.isSome then .float else .int) ∧
    ((¬ ∃ n : Text.Numeral, n.text = text) →
      (∀ symbol, b.table.lookup? b.scopes.visible text = some symbol →
        b.raise (.enterAtom text) =
          .ok { b with assign := some (a.pushOperand (.var ⟨symbol.ident, symbol.ty⟩)) }) ∧
      (b.table.lookup? b.scopes.visible text = none →
        b.raise (.enterAtom text) = .stop b (.error (.undeclaredVariable text)))) ∧
    (∀ c : Char, c.isDigit → Text.DecimalDigit c) ∧
    ¬ Text.DecimalDigit '-' ∧ ¬ Text.DecimalDigit '.' ∧ ¬ Text.DecimalDigit '\n' := by
  refine ⟨?_, ?_, fun h => ?_, fun _ h => .of_isDigit h, Text.not_decimalDigit_sign,
    Text.not_decimalDigit_point, Text.not_decimalDigit_lineBreak⟩
  · rw [← Text.isNumeral_iff]
    exact ⟨isNumeral_of_raise_atom ha, raise_atom_of_numeral ha⟩
  · rintro n rfl
    exact n.ofLiteral_text
  · rw [← Text.isNumeral_iff, Bool.not_eq_true] at h
    exact ⟨fun _ hl => raise_atom_of_declared ha h hl, raise_atom_of_undeclared ha h⟩

/-- `5`, `-3.14`, a numeral with digits of two scripts, a variable whose name is a numeral but for the
point at its end, and a numeral with a line break after it. -/
theorem raise_atom_odd_texts :
    let b : Builder := ⟨⟨[(.global, [⟨"5.", .num .int⟩])]⟩, ⟨[.global], 1, []⟩, [],
      some ⟨⟨"x", .int⟩, [], []⟩⟩
    let constant (text : String) : Step Fault Builder :=
      .ok { b with assign := some ⟨⟨"x", .int⟩, [.literal text], []⟩ }
    let mixed : String := "-\u0663.\u096b"
    b.raise (.enterAtom "5") = constant "5" ∧ Ty.ofLiteral "5" = .int ∧
    b.raise (.enterAtom "-3.14") = constant "-3.14" ∧ Ty.ofLiteral "-3.14" = .float ∧
    b.raise (.enterAtom mixed) = constant mixed ∧ Ty.ofLiteral mixed = .float ∧
    b.raise (.enterAtom "5.") =
      .ok { b with assign := some ⟨⟨"x", .int⟩, [.var ⟨"5.", .int⟩], []⟩ } ∧
    b.raise (.enterAtom "5\n") = .stop b (.error (.undeclaredVariable "5\n")) := by
  intro b constant mixed
  let one (c : Char) (h : Text.DecimalDigit c) : Text.Digits :=
    ⟨[c], by simp, List.forall_mem_singleton.mpr h⟩
  let fourteen : Text.Digits := ⟨['1', '4'], by simp,
    List.forall_mem_cons.mpr ⟨by decide, List.forall_mem_singleton.mpr (by decide)⟩⟩
  let five : Text.Numeral := ⟨false, one '5' (by decide), none⟩
  let pi : Text.Numeral := ⟨true, one '3' (by decide), some fourteen⟩
  let both : Text.Numeral := ⟨true, one '\u0663' (by decide), some (one '\u096b' (by decide))⟩
  have hname : ∀ text, Text.isNumeral text = false → ¬ ∃ n : Text.Numeral, n.text = text := by
    intro text h
    rw [← Text.isNumeral_iff, h]
    exact Bool.false_ne_true
  have hatom := raise_atom (b := b) rfl
  exact ⟨(hatom "5").1.mpr ⟨five, rfl⟩, (hatom "5").2.1 five rfl,
    (hatom "-3.14").1.mpr ⟨pi, rfl⟩, (hatom "-3.14").2.1 pi rfl,
    (hatom mixed).1.mpr ⟨both, rfl⟩, (hatom mixed).2.1 both rfl,
    ((hatom "5.").2.2.1 (hname _ rfl)).1 _ rfl, ((hatom "5\n").2.2.1 (hname _ rfl)).2 rfl⟩

end Statement.Builder

end TinyGen
