import TinyGen.Json.Text

/-!
# Texts of JSON values

`Written v t` says that the text `t` is one way to write the value `v`: blanks stand freely between the
parts, and a character of a string is written as itself or as one of its escapes. It is stated without
the functions that read.

* `string_eq`: a string is read as its characters, however they are written.
* `skipValue_eq`: a value of any shape and depth is skipped. `Round` is one round of the loop, and `Skips`
  follows it from one place in the text to a later one.
-/

namespace TinyGen.Json

/-- JSON value. A number is its spelling. A string is its code points, so that surrogates may stand
alone in it. -/
inductive Value where
  | null
  | boolean (value : Bool)
  | number (spelling : List Char)
  | string (points : List Nat)
  | array (items : List Value)
  | object (members : List (List Nat × Value))

/-- The code points of a text. -/
def points (text : String) : List Nat :=
  text.toList.map Char.toNat

/-! ## Grammar -/

/-- White space. -/
def Blanks (text : List Char) : Prop :=
  ∀ c ∈ text, c ∈ [' ', '\t', '\n', '\r']

/-- A hexadecimal digit, in either case of its letter. -/
def HexDigit (value : Nat) (c : Char) : Prop :=
  "0123456789abcdef".toList[value]? = some c ∨ "0123456789ABCDEF".toList[value]? = some c

/-- Four hexadecimal digits. -/
inductive HexText : Nat → List Char → Prop where
  | digits {a b c d : Nat} {w x y z : Char} (ha : HexDigit a w) (hb : HexDigit b x)
      (hc : HexDigit c y) (hd : HexDigit d z) :
      HexText (((a * 16 + b) * 16 + c) * 16 + d) [w, x, y, z]

/-- The letters of short escapes, and what they stand for. -/
def shortEscapes : List (Char × Char) :=
  [('"', '"'), ('\\', '\\'), ('/', '/'), ('b', '\x08'), ('f', '\x0c'), ('n', '\n'), ('r', '\r'),
    ('t', '\t')]

/-- A code point in a string: the character itself, a short escape, an escape by its number, or an
escaped pair of surrogates. -/
inductive PointText : Nat → List Char → Prop where
  | plain {c : Char} (hcontrol : 0x20 ≤ c.toNat) (hquote : c ≠ '"') (hslash : c ≠ '\\') :
      PointText c.toNat [c]
  | short {letter c : Char} (h : (letter, c) ∈ shortEscapes) : PointText c.toNat ['\\', letter]
  | hex {n : Nat} {digits : List Char} (h : HexText n digits) :
      PointText n ('\\' :: 'u' :: digits)
  | pair {high low : Nat} {first second : List Char} (hfirst : HexText high first)
      (hsecond : HexText low second) (hhigh : 0xD800 ≤ high ∧ high ≤ 0xDBFF)
      (hlow : 0xDC00 ≤ low ∧ low ≤ 0xDFFF) :
      PointText (0x10000 + (high - 0xD800) * 0x400 + (low - 0xDC00))
        ('\\' :: 'u' :: first ++ '\\' :: 'u' :: second)

/-- Code points, one after another. -/
inductive PointsText : List Nat → List Char → Prop where
  | nil : PointsText [] []
  | cons {n : Nat} {ns : List Nat} {t ts : List Char} (h : PointText n t) (hs : PointsText ns ts) :
      PointsText (n :: ns) (t ++ ts)

/-- A string between its quotes. -/
def StringText (points : List Nat) (t : List Char) : Prop :=
  ∃ body, PointsText points body ∧ t = '"' :: (body ++ ['"'])

/-- One or more digits. -/
def Digits (t : List Char) : Prop :=
  t ≠ [] ∧ ∀ c ∈ t, c.isDigit

/-- The digits before the point: a zero, or digits that do not start with one. -/
def WholeText (t : List Char) : Prop :=
  t = ['0'] ∨ (Digits t ∧ t.head? ≠ some '0')

/-- Nothing, or a point with digits. -/
def FractionText (t : List Char) : Prop :=
  t = [] ∨ ∃ digits, Digits digits ∧ t = '.' :: digits

/-- Nothing, or an exponent with its sign. -/
def ExponentText (t : List Char) : Prop :=
  t = [] ∨ ∃ e sign digits, e ∈ ['e', 'E'] ∧ sign ∈ [[], ['+'], ['-']] ∧ Digits digits ∧
    t = e :: (sign ++ digits)

/-- A number. -/
def NumberText (t : List Char) : Prop :=
  ∃ sign whole fraction exponent, sign ∈ [[], ['-']] ∧ WholeText whole ∧ FractionText fraction ∧
    ExponentText exponent ∧ t = sign ++ (whole ++ (fraction ++ exponent))

/-- A text with blanks around it. -/
def Padded (P : List Char → Prop) (t : List Char) : Prop :=
  ∃ before inner after, Blanks before ∧ P inner ∧ Blanks after ∧ t = before ++ (inner ++ after)

/-- What stands between two brackets: parts with commas between them, or blanks where there is no
part. -/
def Separated (parts : List (List Char)) (t : List Char) : Prop :=
  (parts = [] ∧ Blanks t) ∨ (parts ≠ [] ∧ t = [','].intercalate parts)

mutual

/-- The text is a way to write the value. -/
def Written : Value → List Char → Prop
  | .null, t => t = ['n', 'u', 'l', 'l']
  | .boolean true, t => t = ['t', 'r', 'u', 'e']
  | .boolean false, t => t = ['f', 'a', 'l', 's', 'e']
  | .number spelling, t => NumberText spelling ∧ t = spelling
  | .string points, t => StringText points t
  | .array items, t =>
    ∃ parts body, WrittenItems items parts ∧ Separated parts body ∧ t = '[' :: (body ++ [']'])
  | .object members, t =>
    ∃ parts body, WrittenMembers members parts ∧ Separated parts body ∧
      t = '\x7b' :: (body ++ ['\x7d'])

/-- The parts are ways to write the items. -/
def WrittenItems : List Value → List (List Char) → Prop
  | [], parts => parts = []
  | item :: items, parts =>
    ∃ part rest, Padded (Written item) part ∧ WrittenItems items rest ∧ parts = part :: rest

/-- The parts are ways to write the members: a key, a colon and a value. -/
def WrittenMembers : List (List Nat × Value) → List (List Char) → Prop
  | [], parts => parts = []
  | (key, value) :: members, parts =>
    ∃ name part rest, Padded (StringText key) name ∧ Padded (Written value) part ∧
      WrittenMembers members rest ∧ parts = (name ++ ':' :: part) :: rest

end

/-! ## Blanks and words -/

private theorem isBlank_of_mem {c : Char} (h : c ∈ [' ', '\t', '\n', '\r']) : isBlank c := by
  have hall : ∀ c ∈ [' ', '\t', '\n', '\r'], isBlank c := by simp [isBlank]
  exact hall c h

theorem skipBlank_append {ws : List Char} (h : Blanks ws) (t : List Char) :
    skipBlank (ws ++ t) = skipBlank t := by
  induction ws with
  | nil => rfl
  | cons c ws ih =>
    obtain ⟨hc, hws⟩ := List.forall_mem_cons.mp h
    rw [List.cons_append, skipBlank, List.dropWhile_cons_of_pos (isBlank_of_mem hc)]
    exact ih hws

theorem skipBlank_cons {c : Char} (h : isBlank c = false) (t : List Char) :
    skipBlank (c :: t) = c :: t :=
  List.dropWhile_cons_of_neg (by simp [h])

theorem word_append (ws t : List Char) : word ws (ws ++ t) = .ok t := by
  induction ws with
  | nil => rfl
  | cons w ws ih => rw [List.cons_append, word, if_pos rfl, ih]

/-- The first character of a text that is neither blank nor a closing bracket. -/
def Starts (t : List Char) : Prop :=
  ∃ c rest, t = c :: rest ∧ isBlank c = false ∧ c ≠ ']' ∧ c ≠ '\x7d'

/-- Space before a value is all that is skipped. -/
theorem Starts.skipBlank {t : List Char} (h : Starts t) {ws : List Char} (hws : Blanks ws)
    (rest : List Char) : skipBlank (ws ++ (t ++ rest)) = t ++ rest := by
  obtain ⟨c, t, rfl, hc, -⟩ := h
  rw [skipBlank_append hws, List.cons_append, skipBlank_cons hc]

/-! ## Strings -/

theorem hexValue?_of_hexDigit {v : Nat} {c : Char} (h : HexDigit v c) : hexValue? c = some v := by
  have hlower : ∀ v < 16, ("0123456789abcdef".toList[v]?).bind hexValue? = some v := by decide
  have hupper : ∀ v < 16, ("0123456789ABCDEF".toList[v]?).bind hexValue? = some v := by decide
  rcases h with h | h
  · have hv := hlower v (List.getElem?_eq_some_iff.mp h).1
    rwa [h] at hv
  · have hv := hupper v (List.getElem?_eq_some_iff.mp h).1
    rwa [h] at hv

/-- Four digits are read as the number they write. -/
theorem HexText.hexEscape {n : Nat} {digits : List Char} (h : HexText n digits)
    (rest : List Char) : hexEscape (digits ++ rest) = .ok (n, rest) := by
  obtain ⟨ha, hb, hc, hd⟩ := h
  simp [Json.hexEscape, hexValue?_of_hexDigit ha, hexValue?_of_hexDigit hb, hexValue?_of_hexDigit hc,
    hexValue?_of_hexDigit hd]

/-- A short escape is read as its character. -/
theorem shortEscape?_of_mem {letter c : Char} (h : (letter, c) ∈ shortEscapes) :
    letter ≠ 'u' ∧ shortEscape? letter = some c := by
  have hall : ∀ e ∈ shortEscapes, e.1 ≠ 'u' ∧ shortEscape? e.1 = some e.2 := by decide
  exact hall _ h

/-- A character is no surrogate. -/
private theorem not_surrogate (c : Char) :
    isLowSurrogate c.toNat = false ∧ isHighSurrogate c.toNat = false := by
  have hvalid : c.toNat < 0xD800 ∨ (0xDFFF < c.toNat ∧ c.toNat < 0x110000) := c.valid
  simp only [isLowSurrogate, isHighSurrogate, Bool.and_eq_false_iff, decide_eq_false_iff_not]
  omega

/-- One round of reading a string takes one character in. -/
theorem stringFrom_point {c : Char} {t : List Char} (h : PointText c.toNat t) (b : Char)
    (bound read rest : List Char) :
    stringFrom (b :: bound) read (t ++ rest) = stringFrom bound (c :: read) rest := by
  generalize hn : c.toNat = n at h
  cases h with
  | plain hcontrol hquote hslash =>
    obtain rfl := Char.toNat_inj.mp hn
    have hc : isControl c = false := by simp [isControl, hcontrol]
    simp [stringFrom, hquote, hslash, hc]
  | short hmem =>
    obtain rfl := Char.toNat_inj.mp hn
    obtain ⟨hu, he⟩ := shortEscape?_of_mem hmem
    simp [stringFrom, escape, hu, he]
  | hex hdigits =>
    subst hn
    obtain ⟨hlow, hhigh⟩ := not_surrogate c
    simp [stringFrom, escape, unicodeEscape, hdigits.hexEscape, bind, Except.bind, pure, Except.pure,
      hlow, hhigh]
  | @pair high low first second hfirst hsecond hhigh hlow =>
    have hkinds : isLowSurrogate high = false ∧ isHighSurrogate high ∧ isLowSurrogate low := by
      simp only [isLowSurrogate, isHighSurrogate, Bool.and_eq_false_iff, Bool.and_eq_true,
        decide_eq_false_iff_not, decide_eq_true_eq]
      omega
    have hjoin : joinSurrogates high low = c := by
      have hsum : (high - 0xD800) * 0x400 + (low - 0xDC00) + 0x10000 = c.toNat := by omega
      rw [joinSurrogates, hsum, Char.ofNat_toNat]
    have hpair : unicodeEscape (first ++ '\\' :: 'u' :: (second ++ rest)) = .ok (c, rest) := by
      simp [unicodeEscape, hfirst.hexEscape, lowEscape, hsecond.hexEscape, hkinds, hjoin, bind,
        Except.bind, pure, Except.pure]
    simp [stringFrom, escape, hpair]

theorem PointText.length_pos {n : Nat} {t : List Char} (h : PointText n t) : 0 < t.length := by
  cases h <;> simp

/-- A bound that is longer than a text is good for one more round. -/
theorem exists_cons_of_lt {n : Nat} {bound : List Char} (h : n < bound.length) :
    ∃ b shorter, bound = b :: shorter ∧ n ≤ shorter.length := by
  cases bound with
  | nil => cases h
  | cons b shorter => exact ⟨b, shorter, rfl, Nat.le_of_lt_succ h⟩

/-- A string is read up to its closing quote, whatever its escapes. -/
theorem stringFrom_points {cs : List Char} {t : List Char} (h : PointsText (cs.map Char.toNat) t)
    {bound : List Char} (read rest : List Char) (hb : (t ++ '"' :: rest).length ≤ bound.length) :
    stringFrom bound read (t ++ '"' :: rest) = .ok (String.ofList (read.reverse ++ cs), rest) := by
  induction cs generalizing t bound read with
  | nil =>
    cases h
    obtain ⟨b, bound, rfl, -⟩ := exists_cons_of_lt hb
    simp [stringFrom]
  | cons c cs ih =>
    cases h with
    | @cons _ _ t ts hc hcs =>
      have hlt : (ts ++ '"' :: rest).length < bound.length := by
        have := hc.length_pos
        simp only [List.length_append] at hb ⊢
        omega
      obtain ⟨b, shorter, rfl, hshorter⟩ := exists_cons_of_lt hlt
      rw [List.append_assoc, stringFrom_point hc, ih hcs _ hshorter]
      simp

/-- **A string is read as its characters**, however they are written. -/
theorem string_eq {s : String} {t : List Char} (h : StringText (points s) ('"' :: t))
    (rest : List Char) : string (t ++ rest) = .ok (s, rest) := by
  obtain ⟨body, hbody, ht⟩ := h
  obtain rfl := (List.cons.inj ht).2
  rw [string, List.append_assoc, List.singleton_append, stringFrom_points hbody [] rest (Nat.le_refl _)]
  simp

theorem skipStringFrom_hex {n : Nat} {digits : List Char} (h : HexText n digits) (b : Char)
    (bound rest : List Char) :
    skipStringFrom (b :: bound) ('\\' :: 'u' :: (digits ++ rest)) = skipStringFrom bound rest := by
  simp [skipStringFrom, skipEscape, h.hexEscape, Except.map]

/-- A string is skipped up to its closing quote, even if there are lone surrogates in it. -/
theorem skipStringFrom_points {ns : List Nat} {t : List Char} (h : PointsText ns t)
    {bound : List Char} (rest : List Char) (hb : (t ++ '"' :: rest).length ≤ bound.length) :
    skipStringFrom bound (t ++ '"' :: rest) = .ok rest := by
  induction h generalizing bound with
  | nil =>
    obtain ⟨b, shorter, rfl, -⟩ := exists_cons_of_lt hb
    simp [skipStringFrom]
  | @cons n ns t ts hpoint hpoints ih =>
    have hlt : (ts ++ '"' :: rest).length + (t.length - 1) < bound.length := by
      have := hpoint.length_pos
      simp only [List.length_append] at hb ⊢
      omega
    obtain ⟨b, shorter, rfl, hshorter⟩ := exists_cons_of_lt hlt
    rw [List.append_assoc]
    cases hpoint with
    | @plain c hcontrol hquote hslash =>
      have hc : isControl c = false := by simp [isControl, hcontrol]
      rw [← ih (Nat.le_trans (Nat.le_add_right _ _) hshorter)]
      simp [skipStringFrom, hquote, hslash, hc]
    | short hmem =>
      obtain ⟨hu, he⟩ := shortEscape?_of_mem hmem
      rw [← ih (Nat.le_trans (Nat.le_add_right _ _) hshorter)]
      simp [skipStringFrom, skipEscape, hu, he]
    | hex hdigits =>
      rw [List.cons_append, List.cons_append, skipStringFrom_hex hdigits]
      exact ih (Nat.le_trans (Nat.le_add_right _ _) hshorter)
    | @pair high low first second hfirst hsecond _ _ =>
      -- A pair takes two rounds, one for each half.
      have hlt' : (ts ++ '"' :: rest).length < shorter.length := by
        simp only [List.length_append, List.length_cons] at hshorter ⊢
        omega
      obtain ⟨b', shorter, rfl, hshorter'⟩ := exists_cons_of_lt hlt'
      simp only [List.cons_append, List.append_assoc]
      rw [skipStringFrom_hex hfirst, skipStringFrom_hex hsecond]
      exact ih hshorter'

theorem skipString_eq {ns : List Nat} {t : List Char} (h : StringText ns ('"' :: t))
    (rest : List Char) : skipString (t ++ rest) = .ok rest := by
  obtain ⟨body, hbody, ht⟩ := h
  obtain rfl := (List.cons.inj ht).2
  rw [skipString, List.append_assoc, List.singleton_append,
    skipStringFrom_points hbody rest (Nat.le_refl _)]

theorem StringText.exists_cons {ns : List Nat} {t : List Char} (h : StringText ns t) :
    ∃ body, t = '"' :: body := by
  obtain ⟨body, -, rfl⟩ := h
  exact ⟨_, rfl⟩

theorem colon_append {ws : List Char} (h : Blanks ws) (t : List Char) :
    colon (ws ++ ':' :: t) = .ok t := by
  rw [colon, skipBlank_append h, skipBlank_cons (by decide)]
  rfl

/-! ## Numbers -/

/-- The text does not go on with what could be part of a number. -/
def Ends (t : List Char) : Prop :=
  ∀ c, t.head? = some c → c.isDigit = false ∧ c ≠ '.' ∧ c ≠ 'e' ∧ c ≠ 'E'

/-- The text does not go on with a digit. -/
def NoDigit (t : List Char) : Prop :=
  ∀ c, t.head? = some c → c.isDigit = false

theorem Ends.noDigit {t : List Char} (h : Ends t) : NoDigit t :=
  fun c hc => (h c hc).1

theorem ends_append {ws : List Char} (h : Blanks ws) {c : Char} (hc : c ∈ [',', ']', '\x7d'])
    (t : List Char) : Ends (ws ++ c :: t) := by
  have hblank : ∀ c ∈ [' ', '\t', '\n', '\r'], c.isDigit = false ∧ c ≠ '.' ∧ c ≠ 'e' ∧ c ≠ 'E' := by
    simp
  have hmark : ∀ c ∈ [',', ']', '\x7d'], c.isDigit = false ∧ c ≠ '.' ∧ c ≠ 'e' ∧ c ≠ 'E' := by simp
  cases ws with
  | nil =>
    rintro _ ⟨rfl⟩
    exact hmark c hc
  | cons w ws =>
    rintro _ ⟨rfl⟩
    exact hblank w (h w List.mem_cons_self)

theorem spanDigits_append {digits rest : List Char} (h : ∀ c ∈ digits, c.isDigit)
    (hrest : NoDigit rest) : spanDigits (digits ++ rest) = (digits, rest) := by
  have hstop : rest.takeWhile Char.isDigit = [] ∧ rest.dropWhile Char.isDigit = rest := by
    cases rest with
    | nil => exact ⟨rfl, rfl⟩
    | cons c rest => simp [hrest c rfl]
  rw [spanDigits, List.takeWhile_append_of_pos h, List.dropWhile_append_of_pos h, hstop.1, hstop.2,
    List.append_nil]

theorem scanDigits_append {digits rest : List Char} (h : Digits digits) (hrest : NoDigit rest)
    (atEnd : Defect) : scanDigits atEnd (digits ++ rest) = .ok (digits, rest) := by
  obtain ⟨hne, hall⟩ := h
  cases digits with
  | nil => exact absurd rfl hne
  | cons c digits =>
    rw [List.cons_append, scanDigits, if_pos (hall c List.mem_cons_self)]
    exact congrArg Except.ok (spanDigits_append hall hrest)

theorem scanWhole_append {whole rest : List Char} (h : WholeText whole) (hrest : NoDigit rest)
    (atEnd : Defect) : scanWhole atEnd (whole ++ rest) = .ok (whole, rest) := by
  rcases h with rfl | ⟨⟨hne, hall⟩, hzero⟩
  · cases rest with
    | nil => rfl
    | cons d rest => simp [scanWhole, hrest d rfl]
  · cases whole with
    | nil => exact absurd rfl hne
    | cons c whole =>
      have hc : c ≠ '0' := fun he => hzero (congrArg some he)
      have hspan := spanDigits_append hall hrest
      rw [List.cons_append] at hspan ⊢
      simp [scanWhole, hc, hall c List.mem_cons_self, hspan]

theorem scanFraction_append {fraction rest : List Char} (h : FractionText fraction)
    (hrest : NoDigit rest) (hpoint : rest.head? ≠ some '.') (atEnd : Defect) :
    ∃ digits, scanFraction atEnd (fraction ++ rest) = .ok (digits, rest) := by
  rcases h with rfl | ⟨digits, hdigits, rfl⟩
  · refine ⟨[], ?_⟩
    rw [List.nil_append]
    unfold scanFraction
    split
    · exact absurd rfl hpoint
    · rfl
  · exact ⟨digits, scanDigits_append hdigits hrest atEnd⟩

/-- An exponent is scanned up to the end of the number. -/
theorem scanExponent_append {exponent rest : List Char} (h : ExponentText exponent)
    (hrest : Ends rest) (atEnd : Defect) :
    ∃ value, scanExponent atEnd (exponent ++ rest) = .ok (value, rest) := by
  rcases h with rfl | ⟨e, sign, digits, he, hsign, hdigits, rfl⟩
  · refine ⟨none, ?_⟩
    cases rest with
    | nil => rfl
    | cons c rest =>
      obtain ⟨-, -, he, hE⟩ := hrest c rfl
      simp [scanExponent, he, hE]
  · have hscan := scanDigits_append hdigits hrest.noDigit atEnd
    have he' : e = 'e' ∨ e = 'E' := by simpa using he
    obtain rfl | rfl | rfl : sign = [] ∨ sign = ['+'] ∨ sign = ['-'] := by simpa using hsign
    · obtain ⟨hne, hall⟩ := hdigits
      cases digits with
      | nil => exact absurd rfl hne
      | cons d digits =>
        have hd : d ≠ '-' ∧ d ≠ '+' := by
          have hdigit := hall d List.mem_cons_self
          constructor <;> rintro rfl <;> exact absurd hdigit (by decide)
        refine ⟨some (false, d :: digits), ?_⟩
        simp only [List.cons_append, List.nil_append] at hscan ⊢
        simp [scanExponent, he', hd, hscan]
    · exact ⟨some (false, digits), by simp [scanExponent, he', hscan]⟩
    · exact ⟨some (true, digits), by simp [scanExponent, he', hscan]⟩

/-- A number after its sign. -/
theorem scanNumber_append {whole fraction exponent rest : List Char} (hwhole : WholeText whole)
    (hfraction : FractionText fraction) (hexponent : ExponentText exponent) (hrest : Ends rest)
    (atEnd : Defect) (negative : Bool) :
    ∃ n, scanNumber atEnd negative (whole ++ (fraction ++ (exponent ++ rest))) = .ok (n, rest) := by
  -- What follows each part is the next one, or the rest where that is empty.
  have hafter : NoDigit (exponent ++ rest) ∧ (exponent ++ rest).head? ≠ some '.' := by
    rcases hexponent with rfl | ⟨e, sign, digits, he, -, -, rfl⟩
    · exact ⟨hrest.noDigit, fun h => (hrest '.' h).2.1 rfl⟩
    · have hall : ∀ e ∈ ['e', 'E'], e.isDigit = false ∧ e ≠ '.' := by simp
      refine ⟨?_, fun h => (hall e he).2 (Option.some.inj h)⟩
      rintro _ ⟨rfl⟩
      exact (hall e he).1
  have hbefore : NoDigit (fraction ++ (exponent ++ rest)) := by
    rcases hfraction with rfl | ⟨digits, -, rfl⟩
    · exact hafter.1
    · rintro _ ⟨rfl⟩
      rfl
  obtain ⟨digits, hdigits⟩ := scanFraction_append hfraction hafter.1 hafter.2 atEnd
  obtain ⟨value, hvalue⟩ := scanExponent_append hexponent hrest atEnd
  refine ⟨⟨negative, whole, digits, value⟩, ?_⟩
  simp [scanNumber, scanWhole_append hwhole hbefore, hdigits, hvalue, bind, Except.bind, pure,
    Except.pure]

/-! ## Skipped values -/

private theorem ne_of_isDigit {c d : Char} (hc : c.isDigit) (hd : d.isDigit = false) : c ≠ d := by
  rintro rfl
  rw [hd] at hc
  cases hc

theorem WholeText.exists_cons {t : List Char} (h : WholeText t) :
    ∃ c digits, t = c :: digits ∧ c.isDigit := by
  rcases h with rfl | ⟨⟨hne, hall⟩, -⟩
  · exact ⟨'0', [], rfl, by decide⟩
  · cases t with
    | nil => exact absurd rfl hne
    | cons c digits => exact ⟨c, digits, rfl, hall c List.mem_cons_self⟩

/-- A number is skipped from its first character on. -/
theorem skipScalar_number {t : List Char} (h : NumberText t) {rest : List Char} (hrest : Ends rest) :
    ∃ c body, t = c :: body ∧ (c = '-' ∨ c.isDigit) ∧ skipScalar c (body ++ rest) = .ok rest := by
  obtain ⟨sign, whole, fraction, exponent, hsign, hwhole, hfraction, hexponent, rfl⟩ := h
  have hscan : ∀ negative, ∃ n, scanNumber .malformed negative
      (whole ++ (fraction ++ (exponent ++ rest))) = .ok (n, rest) := fun negative =>
    scanNumber_append hwhole hfraction hexponent hrest .malformed negative
  obtain rfl | rfl : sign = [] ∨ sign = ['-'] := by simpa using hsign
  · obtain ⟨n, hn⟩ := hscan false
    obtain ⟨c, digits, rfl, hc⟩ := hwhole.exists_cons
    refine ⟨c, digits ++ (fraction ++ exponent), rfl, .inr hc, ?_⟩
    have hne : c ≠ 'n' ∧ c ≠ 't' ∧ c ≠ 'f' ∧ c ≠ '-' :=
      ⟨ne_of_isDigit hc rfl, ne_of_isDigit hc rfl, ne_of_isDigit hc rfl, ne_of_isDigit hc rfl⟩
    rw [List.cons_append] at hn
    simp [skipScalar, hne, hc, hn, Except.map]
  · obtain ⟨n, hn⟩ := hscan true
    refine ⟨'-', whole ++ (fraction ++ exponent), rfl, .inl rfl, ?_⟩
    simp [skipScalar, hn, Except.map]

/-- No value starts with a blank or a closing bracket. -/
theorem Written.starts {v : Value} {t : List Char} (h : Written v t) : Starts t := by
  cases v with
  | null => exact ⟨'n', _, h, by decide, by decide, by decide⟩
  | boolean value =>
    cases value with
    | true => exact ⟨'t', _, h, by decide, by decide, by decide⟩
    | false => exact ⟨'f', _, h, by decide, by decide, by decide⟩
  | number spelling =>
    obtain ⟨hnumber, rfl⟩ := h
    have hend : Ends [] := fun c hc => nomatch hc
    obtain ⟨c, body, rfl, hc, -⟩ := skipScalar_number hnumber hend
    rcases hc with rfl | hc
    · exact ⟨'-', _, rfl, by decide, by decide, by decide⟩
    · refine ⟨c, _, rfl, ?_, ne_of_isDigit hc rfl, ne_of_isDigit hc rfl⟩
      simp [isBlank, ne_of_isDigit hc]
  | string ns =>
    obtain ⟨body, -, rfl⟩ := h
    exact ⟨'"', _, rfl, by decide, by decide, by decide⟩
  | array items =>
    obtain ⟨parts, body, -, -, rfl⟩ := h
    exact ⟨'[', _, rfl, by decide, by decide, by decide⟩
  | object members =>
    obtain ⟨parts, body, -, -, rfl⟩ := h
    exact ⟨'\x7b', _, rfl, by decide, by decide, by decide⟩

/-- A place in the loop that skips: what comes next, the open brackets and the text. -/
structure Place where
  next : Skip
  brackets : List Bracket
  text : List Char

/-- The loop goes on at `b` when it has come to `a`, as long as its bound is no shorter than the
text. -/
def Skips (a b : Place) : Prop :=
  ∀ bound : List Char, a.text.length ≤ bound.length → ∃ bound' : List Char,
    b.text.length ≤ bound'.length ∧
      skipFrom bound a.next a.brackets a.text = skipFrom bound' b.next b.brackets b.text

/-- What the first part leaves of the bound is enough for the second. -/
theorem Skips.trans {a b c : Place} (hab : Skips a b) (hbc : Skips b c) : Skips a c := by
  intro bound hbound
  obtain ⟨bound', hbound', hb⟩ := hab bound hbound
  obtain ⟨bound'', hbound'', hc⟩ := hbc bound' hbound'
  exact ⟨bound'', hbound'', hb.trans hc⟩

/-- The key of a member: what is left when the blanks before it are skipped. -/
theorem Padded.skipBlank_key {key : List Nat} {name : List Char} (h : Padded (StringText key) name)
    (rest : List Char) : ∃ text, skipBlank (name ++ ':' :: rest) = '"' :: text ∧
      skipKey ('"' :: text) = .ok rest := by
  obtain ⟨ws, k, ws', hws, hk, hws', rfl⟩ := h
  obtain ⟨body, rfl⟩ := hk.exists_cons
  refine ⟨body ++ (ws' ++ ':' :: rest), ?_, ?_⟩
  · rw [List.append_assoc, skipBlank_append hws, List.append_assoc, List.cons_append,
      skipBlank_cons (by decide)]
  · rw [skipKey, skipBlank_cons (by decide)]
    simp [skipString_eq hk, Except.bind, colon_append hws']

theorem skipKey_eq {key : List Nat} {name : List Char} (h : Padded (StringText key) name)
    (rest : List Char) : skipKey (name ++ ':' :: rest) = .ok rest := by
  obtain ⟨text, hquote, hkey⟩ := h.skipBlank_key rest
  rw [skipKey, skipBlank_cons (by decide)] at hkey
  rw [skipKey, hquote]
  exact hkey

private theorem intercalate_cons (part : List Char) (parts : List (List Char)) :
    [','].intercalate (part :: parts) = part ++ parts.flatMap (',' :: ·) := by
  induction parts generalizing part with
  | nil => simp [List.intercalate]
  | cons next parts ih =>
    have hcons : [','].intercalate (part :: next :: parts) =
        part ++ ',' :: [','].intercalate (next :: parts) := by
      simp [List.intercalate]
    rw [hcons, ih, List.flatMap_cons]
    rfl

theorem Separated.blanks {t : List Char} (h : Separated [] t) : Blanks t :=
  h.elim And.right fun h => absurd rfl h.1

theorem Separated.eq_append {part t : List Char} {parts : List (List Char)}
    (h : Separated (part :: parts) t) : t = part ++ parts.flatMap (',' :: ·) :=
  h.elim (fun h => nomatch h.1) fun h => h.2.trans (intercalate_cons part parts)

theorem blanks_nil : Blanks [] :=
  fun _ h => nomatch h

/-- What follows a value between brackets is no part of it. -/
theorem ends_parts {ws : List Char} (h : Blanks ws) (parts : List (List Char)) {c : Char}
    (hc : c ∈ [']', '\x7d']) (rest : List Char) :
    Ends (ws ++ (parts.flatMap (',' :: ·) ++ c :: rest)) := by
  cases parts with
  | nil => exact ends_append h (List.mem_cons_of_mem _ hc) rest
  | cons part parts => exact ends_append h List.mem_cons_self _

/-- One round of the loop, from a character that is not blank. -/
inductive Round : Place → Place → Prop where
  | scalar {c : Char} {body rest : List Char} (hc : isBlank c = false) (harray : c ≠ '[')
      (hobject : c ≠ '\x7b') (h : skipScalar c (body ++ rest) = .ok rest) (brackets : List Bracket) :
      Round ⟨.value, brackets, c :: body ++ rest⟩ ⟨.after, brackets, rest⟩
  | emptyArray {ws : List Char} (h : Blanks ws) (brackets : List Bracket) (rest : List Char) :
      Round ⟨.value, brackets, '[' :: (ws ++ ']' :: rest)⟩ ⟨.after, brackets, rest⟩
  | emptyObject {ws : List Char} (h : Blanks ws) (brackets : List Bracket) (rest : List Char) :
      Round ⟨.value, brackets, '\x7b' :: (ws ++ '\x7d' :: rest)⟩ ⟨.after, brackets, rest⟩
  | openArray {ws t : List Char} (h : Blanks ws) (ht : Starts t) (brackets : List Bracket)
      (rest : List Char) :
      Round ⟨.value, brackets, '[' :: (ws ++ (t ++ rest))⟩ ⟨.value, .array :: brackets, t ++ rest⟩
  | openObject {key : List Nat} {name : List Char} (h : Padded (StringText key) name)
      (brackets : List Bracket) (rest : List Char) :
      Round ⟨.value, brackets, '\x7b' :: (name ++ ':' :: rest)⟩ ⟨.value, .object :: brackets, rest⟩
  | nextItem (brackets : List Bracket) (rest : List Char) :
      Round ⟨.after, .array :: brackets, ',' :: rest⟩ ⟨.value, .array :: brackets, rest⟩
  | nextMember {key : List Nat} {name : List Char} (h : Padded (StringText key) name)
      (brackets : List Bracket) (rest : List Char) :
      Round ⟨.after, .object :: brackets, ',' :: (name ++ ':' :: rest)⟩
        ⟨.value, .object :: brackets, rest⟩
  | closeArray (brackets : List Bracket) (rest : List Char) :
      Round ⟨.after, .array :: brackets, ']' :: rest⟩ ⟨.after, brackets, rest⟩
  | closeObject (brackets : List Bracket) (rest : List Char) :
      Round ⟨.after, .object :: brackets, '\x7d' :: rest⟩ ⟨.after, brackets, rest⟩

theorem Round.length_lt {a b : Place} (h : Round a b) : b.text.length < a.text.length := by
  cases h <;> simp <;> omega

/-- Each round of the scanner takes one character of its bound. -/
theorem Round.skipFrom_eq {a b : Place} (h : Round a b) {ws : List Char} (hws : Blanks ws) (x : Char)
    (bound : List Char) : skipFrom (x :: bound) a.next a.brackets (ws ++ a.text) =
      skipFrom bound b.next b.brackets b.text := by
  have hmark : ∀ c ∈ ['[', '\x7b', ',', ']', '\x7d'], ∀ t, skipBlank (c :: t) = c :: t := by
    have hblank : ∀ c ∈ ['[', '\x7b', ',', ']', '\x7d'], isBlank c = false := by simp [isBlank]
    exact fun c hc => skipBlank_cons (hblank c hc)
  cases h with
  | scalar hc harray hobject h =>
    simp [skipFrom, skipBlank_append hws, skipBlank_cons hc, harray, hobject, h]
  | emptyArray h => simp [skipFrom, skipBlank_append hws, skipBlank_append h, hmark]
  | emptyObject h => simp [skipFrom, skipBlank_append hws, skipBlank_append h, hmark]
  | openArray h ht brackets rest =>
    have hfirst := ht.skipBlank h rest
    obtain ⟨c, t, rfl, -, hclose, -⟩ := ht
    rw [List.cons_append] at hfirst ⊢
    simp [skipFrom, skipBlank_append hws, hmark, hfirst, hclose]
  | openObject h brackets rest =>
    obtain ⟨text, hquote, hkey⟩ := h.skipBlank_key rest
    simp [skipFrom, skipBlank_append hws, hmark, hquote, hkey]
  | nextItem => simp [skipFrom, skipBlank_append hws, hmark]
  | nextMember h => simp [skipFrom, skipBlank_append hws, hmark, skipKey_eq h]
  | closeArray => simp [skipFrom, skipBlank_append hws, hmark]
  | closeObject => simp [skipFrom, skipBlank_append hws, hmark]

/-- A round takes at least one character, so the bound that is left is long enough. -/
theorem Round.skips {a b : Place} (h : Round a b) {ws : List Char} (hws : Blanks ws) :
    Skips ⟨a.next, a.brackets, ws ++ a.text⟩ b := by
  intro bound hbound
  have hlt : b.text.length < bound.length := by
    have hround := h.length_lt
    rw [List.length_append] at hbound
    omega
  obtain ⟨x, shorter, rfl, hshorter⟩ := exists_cons_of_lt hlt
  exact ⟨shorter, hshorter, h.skipFrom_eq hws x shorter⟩

theorem round_number {t rest : List Char} (h : NumberText t) (hrest : Ends rest)
    (brackets : List Bracket) : Round ⟨.value, brackets, t ++ rest⟩ ⟨.after, brackets, rest⟩ := by
  obtain ⟨c, body, rfl, hc, hskip⟩ := skipScalar_number h hrest
  have hstart : isBlank c = false ∧ c ≠ '[' ∧ c ≠ '\x7b' := by
    rcases hc with rfl | hc
    · decide
    · exact ⟨by simp [isBlank, ne_of_isDigit hc], ne_of_isDigit hc rfl, ne_of_isDigit hc rfl⟩
  exact .scalar hstart.1 hstart.2.1 hstart.2.2 hskip brackets

mutual

/-- The scanner skips a value that is written, and no more. -/
theorem skips_value (v : Value) {t ws rest : List Char} (h : Written v t) (hws : Blanks ws)
    (hrest : Ends rest) (brackets : List Bracket) :
    Skips ⟨.value, brackets, ws ++ (t ++ rest)⟩ ⟨.after, brackets, rest⟩ := by
  match v with
  | .null =>
    obtain rfl : t = ['n', 'u', 'l', 'l'] := h
    have hword : skipScalar 'n' (['u', 'l', 'l'] ++ rest) = .ok rest := word_append _ rest
    exact (Round.scalar (by decide) (by decide) (by decide) hword brackets).skips hws
  | .boolean true =>
    obtain rfl : t = ['t', 'r', 'u', 'e'] := h
    have hword : skipScalar 't' (['r', 'u', 'e'] ++ rest) = .ok rest := word_append _ rest
    exact (Round.scalar (by decide) (by decide) (by decide) hword brackets).skips hws
  | .boolean false =>
    obtain rfl : t = ['f', 'a', 'l', 's', 'e'] := h
    have hword : skipScalar 'f' (['a', 'l', 's', 'e'] ++ rest) = .ok rest := word_append _ rest
    exact (Round.scalar (by decide) (by decide) (by decide) hword brackets).skips hws
  | .number spelling =>
    obtain ⟨hnumber, rfl⟩ := h
    exact (round_number hnumber hrest brackets).skips hws
  | .string ns =>
    obtain ⟨body, rfl⟩ := StringText.exists_cons h
    have hstring : skipScalar '"' (body ++ rest) = .ok rest := skipString_eq h rest
    exact (Round.scalar (by decide) (by decide) (by decide) hstring brackets).skips hws
  | .array items =>
    obtain ⟨parts, body, hitems, hbody, rfl⟩ := h
    match items, hitems with
    | [], hnil =>
      obtain rfl : parts = [] := hnil
      simpa using (Round.emptyArray hbody.blanks brackets rest).skips hws
    | item :: items, ⟨part, parts, hpart, hparts, he⟩ =>
      subst he
      obtain ⟨ws₁, t₁, ws₂, hws₁, ht₁, hws₂, rfl⟩ := hpart
      obtain rfl := hbody.eq_append
      have hopen := (Round.openArray hws₁ ht₁.starts brackets
        (ws₂ ++ (parts.flatMap (',' :: ·) ++ ']' :: rest))).skips hws
      have hitem := skips_value item ht₁ blanks_nil (ends_parts (c := ']') hws₂ parts (by decide) rest)
        (.array :: brackets)
      have hitems := skips_items items hparts hws₂ brackets rest
      -- The first item follows the bracket, the others follow a comma each.
      simpa using (hopen.trans hitem).trans hitems
  | .object members =>
    obtain ⟨parts, body, hmembers, hbody, rfl⟩ := h
    match members, hmembers with
    | [], hnil =>
      obtain rfl : parts = [] := hnil
      simpa using (Round.emptyObject hbody.blanks brackets rest).skips hws
    | (key, value) :: members, ⟨name, part, parts, hname, hpart, hparts, he⟩ =>
      subst he
      obtain ⟨ws₁, t₁, ws₂, hws₁, ht₁, hws₂, rfl⟩ := hpart
      obtain rfl := hbody.eq_append
      have hopen := (Round.openObject hname brackets
        (ws₁ ++ (t₁ ++ (ws₂ ++ (parts.flatMap (',' :: ·) ++ '\x7d' :: rest))))).skips hws
      have hvalue := skips_value value ht₁ hws₁ (ends_parts (c := '\x7d') hws₂ parts (by decide) rest)
        (.object :: brackets)
      have hmembers := skips_members members hparts hws₂ brackets rest
      simpa using (hopen.trans hvalue).trans hmembers

/-- The items that are left, after an item and the blanks that follow it. -/
theorem skips_items (items : List Value) {parts : List (List Char)} {ws : List Char}
    (h : WrittenItems items parts) (hws : Blanks ws) (brackets : List Bracket) (rest : List Char) :
    Skips ⟨.after, .array :: brackets, ws ++ (parts.flatMap (',' :: ·) ++ ']' :: rest)⟩
      ⟨.after, brackets, rest⟩ := by
  match items, h with
  | [], hnil =>
    obtain rfl : parts = [] := hnil
    exact (Round.closeArray brackets rest).skips hws
  | item :: items, ⟨part, parts, hpart, hparts, he⟩ =>
    subst he
    obtain ⟨ws₁, t₁, ws₂, hws₁, ht₁, hws₂, rfl⟩ := hpart
    have hnext := (Round.nextItem brackets
      (ws₁ ++ (t₁ ++ (ws₂ ++ (parts.flatMap (',' :: ·) ++ ']' :: rest))))).skips hws
    have hitem := skips_value item ht₁ hws₁ (ends_parts (c := ']') hws₂ parts (by decide) rest)
      (.array :: brackets)
    have hitems := skips_items items hparts hws₂ brackets rest
    simpa using (hnext.trans hitem).trans hitems

/-- The members that are left, after a member and the blanks that follow it. -/
theorem skips_members (members : List (List Nat × Value)) {parts : List (List Char)}
    {ws : List Char} (h : WrittenMembers members parts) (hws : Blanks ws)
    (brackets : List Bracket) (rest : List Char) :
    Skips ⟨.after, .object :: brackets, ws ++ (parts.flatMap (',' :: ·) ++ '\x7d' :: rest)⟩
      ⟨.after, brackets, rest⟩ := by
  match members, h with
  | [], hnil =>
    obtain rfl : parts = [] := hnil
    exact (Round.closeObject brackets rest).skips hws
  | (key, value) :: members, ⟨name, part, parts, hname, hpart, hparts, he⟩ =>
    subst he
    obtain ⟨ws₁, t₁, ws₂, hws₁, ht₁, hws₂, rfl⟩ := hpart
    have hnext := (Round.nextMember hname brackets
      (ws₁ ++ (t₁ ++ (ws₂ ++ (parts.flatMap (',' :: ·) ++ '\x7d' :: rest))))).skips hws
    have hvalue := skips_value value ht₁ hws₁ (ends_parts (c := '\x7d') hws₂ parts (by decide) rest)
      (.object :: brackets)
    have hmembers := skips_members members hparts hws₂ brackets rest
    simpa using (hnext.trans hvalue).trans hmembers

end

/-- **A value is skipped**, whatever its shape and depth. -/
theorem skipValue_eq {v : Value} {t ws rest : List Char} (h : Written v t) (hws : Blanks ws)
    (hrest : Ends rest) : skipValue (ws ++ (t ++ rest)) = .ok rest := by
  obtain ⟨bound, -, hskip⟩ := skips_value v h hws hrest [] (ws ++ (t ++ rest)) (Nat.le_refl _)
  rw [skipValue, hskip]
  cases bound <;> rfl

end TinyGen.Json
