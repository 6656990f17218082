import Mathlib.Data.List.Forall2
import TinyGen.Json.Reader
import TinyGen.Proofs.JsonTexts

/-!
# Readers of written values

`Reads read a v` says that a reader takes the value `a` from every text that `v` can be written as. There
is one lemma for each way to build a reader. The one for records (`reads_record`) is over all that a
record may be written as (`Value.IsRecord`): an object with its fields in any order and other members
among them, or an array of its fields, where fields may be left out as their forms allow.
-/

namespace TinyGen.Json

/-- The value of a text. -/
def Value.ofText (text : String) : Value :=
  .string (points text)

/-- The object whose keys are texts. -/
def Value.ofMembers (members : List (String × Value)) : Value :=
  .object (members.map fun m => (points m.1, m.2))

/-! ## Records as values -/

/-- A field of a record as it is written: its name, and which values may stand for it, where `none` says
that it is left out. -/
structure Form where
  name : String
  allows : Option Value → Prop

/-- A field that is always written. -/
def Form.required (name : String) (P : Value → Prop) : Form :=
  ⟨name, fun value? => ∃ v, value? = some v ∧ P v⟩

/-- A field that may be left out when it has its default. -/
def Form.defaulted (name : String) (isDefault : Prop) (P : Value → Prop) : Form :=
  ⟨name, fun value? => (value? = none ∧ isDefault) ∨ ∃ v, value? = some v ∧ P v⟩

@[simp]
theorem Form.name_required (name : String) (P : Value → Prop) : (required name P).name = name :=
  rfl

@[simp]
theorem Form.name_defaulted (name : String) (isDefault : Prop) (P : Value → Prop) :
    (defaulted name isDefault P).name = name :=
  rfl

/-- The items are the fields in order, up to the last that is written. -/
def ItemsFit : List Form → List Value → Prop
  | [], items => items = []
  | form :: forms, items => form.allows items.head? ∧ ItemsFit forms items.tail

/-- Each field is a member at most once. Members with other keys may be there too. -/
def MembersFit (forms : List Form) (members : List (String × Value)) : Prop :=
  ∀ form ∈ forms, ∃ value? : Option Value,
    (members.filter (·.1 = form.name)).map Prod.snd = value?.toList ∧ form.allows value?

/-- A record: an array of its fields, or an object with its fields as members. -/
inductive Value.IsRecord (forms : List Form) : Value → Prop where
  | array {items : List Value} (h : ItemsFit forms items) : IsRecord forms (.array items)
  | object {members : List (String × Value)} (h : MembersFit forms members) :
      IsRecord forms (.ofMembers members)

/-! ## Readers -/

variable {α β : Type}

/-- The reader takes `a` from every text of `v`, with blanks before it and anything after it. -/
def Reads (read : Reader α) (a : α) (v : Value) : Prop :=
  ∀ t, Written v t → ∀ ws, Blanks ws → ∀ rest, read (ws ++ (t ++ rest)) = .ok (a, rest)

theorem Reads.map {read : Reader α} {a : α} {v : Value} (h : Reads read a v) (f : α → β) :
    Reads (read.map f) (f a) v := by
  intro t ht ws hws rest
  rw [Reader.map, h t ht ws hws rest]

theorem reads_text (s : String) : Reads text s (.ofText s) := by
  intro t ht ws hws rest
  obtain ⟨body, rfl⟩ := StringText.exists_cons ht
  rw [text, skipBlank_append hws, List.cons_append, skipBlank_cons (by decide)]
  exact string_eq ht rest

theorem reads_unit : Reads unit () .null := by
  intro t ht ws hws rest
  obtain rfl : t = ['n', 'u', 'l', 'l'] := ht
  have hword : word ['u', 'l', 'l'] ('u' :: 'l' :: 'l' :: rest) = .ok rest :=
    word_append ['u', 'l', 'l'] rest
  rw [unit, skipBlank_append hws, List.cons_append, skipBlank_cons (by decide)]
  simp [hword, Except.map]

theorem reads_optional_none (read : Reader α) : Reads (optional read) none .null := by
  intro t ht ws hws rest
  obtain rfl : t = ['n', 'u', 'l', 'l'] := ht
  have hword : word ['u', 'l', 'l'] ('u' :: 'l' :: 'l' :: rest) = .ok rest :=
    word_append ['u', 'l', 'l'] rest
  rw [optional, skipBlank_append hws, List.cons_append, skipBlank_cons (by decide)]
  simp [hword, Except.map]

/-- A record is not taken for `null`. -/
theorem reads_optional_some {read : Reader α} {a : α} {v : Value} {forms : List Form}
    (h : Reads read a v) (hv : v.IsRecord forms) : Reads (optional read) (some a) v := by
  intro t ht ws hws rest
  have hbracket : ∃ c body, t = c :: body ∧ isBlank c = false ∧ c ≠ 'n' := by
    cases hv with
    | array _ =>
      obtain ⟨parts, body, -, -, rfl⟩ := ht
      exact ⟨'[', _, rfl, by decide, by decide⟩
    | object _ =>
      obtain ⟨parts, body, -, -, rfl⟩ := ht
      exact ⟨'\x7b', _, rfl, by decide, by decide⟩
  obtain ⟨c, body, rfl, hc, hn⟩ := hbracket
  have hread := h.map some (c :: body) ht [] blanks_nil rest
  rw [List.nil_append, List.cons_append] at hread
  rw [optional, skipBlank_append hws, List.cons_append, skipBlank_cons hc]
  split
  · rename_i he
    exact absurd (List.cons.inj he).1 hn
  · exact hread

/-! ## Arrays -/

/-- The text stands before parts and the bracket that closes them. The first part of all has no comma
before it. -/
inductive AtParts (close : Char) : Bool → List (List Char) → List Char → List Char → Prop where
  | first {parts : List (List Char)} {body : List Char} (h : Separated parts body)
      (rest : List Char) : AtParts close true parts (body ++ close :: rest) rest
  | later {ws : List Char} (h : Blanks ws) (parts : List (List Char)) (rest : List Char) :
      AtParts close false parts (ws ++ (parts.flatMap (',' :: ·) ++ close :: rest)) rest

variable {close : Char} {isFirst : Bool} {part text rest : List Char} {parts : List (List Char)}

theorem AtParts.at_end (h : AtParts close isFirst [] text rest) :
    ∃ ws, Blanks ws ∧ text = ws ++ close :: rest := by
  cases h with
  | first h => exact ⟨_, h.blanks, rfl⟩
  | later h => exact ⟨_, h, rfl⟩

/-- What stands before the next part: nothing, or blanks and a comma. -/
theorem AtParts.at_next (h : AtParts close isFirst (part :: parts) text rest) :
    (isFirst = true ∧ text = part ++ (parts.flatMap (',' :: ·) ++ close :: rest)) ∨
      (isFirst = false ∧ ∃ ws, Blanks ws ∧
        text = ws ++ ',' :: (part ++ (parts.flatMap (',' :: ·) ++ close :: rest))) := by
  cases h with
  | first h => exact .inl ⟨rfl, by rw [h.eq_append, List.append_assoc]⟩
  | later h => exact .inr ⟨rfl, _, h, by simp⟩

theorem nextItem?_close (h : AtParts ']' isFirst [] text rest) :
    nextItem? isFirst text = .ok none ∧ endItems text = .ok rest := by
  obtain ⟨ws, hws, rfl⟩ := h.at_end
  rw [nextItem?, endItems, skipBlank_append hws, skipBlank_cons (by decide)]
  exact ⟨rfl, rfl⟩

theorem nextItem?_next {v : Value} (h : AtParts ']' isFirst (part :: parts) text rest)
    (hpart : Padded (Written v) part) : ∃ t ws, Written v t ∧ Blanks ws ∧
      nextItem? isFirst text = .ok (some (t ++ (ws ++ (parts.flatMap (',' :: ·) ++ ']' :: rest)))) ∧
      (ws ++ (parts.flatMap (',' :: ·) ++ ']' :: rest)).length < text.length := by
  obtain ⟨ws₁, t, ws₂, hws₁, ht, hws₂, rfl⟩ := hpart
  refine ⟨t, ws₂, ht, hws₂, ?_⟩
  have hfirst := ht.starts.skipBlank hws₁ (ws₂ ++ (parts.flatMap (',' :: ·) ++ ']' :: rest))
  obtain ⟨c, t, rfl, -, hc, -⟩ := ht.starts
  obtain ⟨rfl, rfl⟩ | ⟨rfl, ws, hws, rfl⟩ := h.at_next
  · rw [List.append_assoc, List.append_assoc]
    refine ⟨?_, by simp; omega⟩
    rw [nextItem?, hfirst]
    simp [hc]
  · rw [List.append_assoc, List.append_assoc]
    refine ⟨?_, by simp; omega⟩
    rw [nextItem?, skipBlank_append hws, skipBlank_cons (by decide)]
    simp only [hfirst]
    simp [hc]

theorem itemsFrom_eq {item : Reader α} {xs : List α} {vs : List Value}
    (h : List.Forall₂ (Reads item) xs vs) (hvs : WrittenItems vs parts)
    (hat : AtParts ']' isFirst parts text rest) {bound : List Char} (hb : text.length < bound.length)
    (read : List α) : itemsFrom item bound isFirst read text = .ok (read.reverse ++ xs, rest) := by
  induction h generalizing isFirst parts text bound read with
  | nil =>
    obtain rfl : parts = [] := hvs
    obtain ⟨hnext, hend⟩ := nextItem?_close hat
    obtain ⟨b, shorter, rfl, -⟩ := exists_cons_of_lt hb
    simp [itemsFrom, hnext, hend, Except.map]
  | @cons x v xs vs hx _ ih =>
    obtain ⟨part, parts, hpart, hparts, rfl⟩ := hvs
    obtain ⟨t, ws, ht, hws, hnext, hlt⟩ := nextItem?_next hat hpart
    obtain ⟨b, shorter, rfl, hshorter⟩ := exists_cons_of_lt hb
    have hitem := hx t ht [] blanks_nil (ws ++ (parts.flatMap (',' :: ·) ++ ']' :: rest))
    rw [List.nil_append] at hitem
    have hmore := ih hparts (.later hws parts rest) (Nat.lt_of_lt_of_le hlt hshorter) (x :: read)
    simp [itemsFrom, hnext, hitem, hmore]

theorem reads_list {item : Reader α} {xs : List α} {vs : List Value}
    (h : List.Forall₂ (Reads item) xs vs) : Reads (list (some item)) xs (.array vs) := by
  intro t ht ws hws rest
  obtain ⟨parts, body, hvs, hbody, rfl⟩ := ht
  have htext : '[' :: (body ++ [']']) ++ rest = '[' :: (body ++ ']' :: rest) := by simp
  rw [htext, list, skipBlank_append hws, skipBlank_cons (by decide)]
  exact itemsFrom_eq h hvs (.first hbody rest) (by simp) []

/-! ## Records -/

/-- The fields read their values from what the forms allow, and have them when they are left out. -/
inductive Fits : {types : List Type} → Fields types → Values types → List Form → Prop where
  | nil : Fits .nil () []
  | cons {τ : Type} {types : List Type} {field : Field τ} {value : τ} {form : Form}
      {fields : Fields types} {values : Values types} {forms : List Form} (hname : field.name = form.name)
      (hread : ∀ v, form.allows (some v) → Reads field.read value v)
      (habsent : form.allows none → field.absent = some value) (h : Fits fields values forms) :
      Fits (.cons field fields) (value, values) (form :: forms)

variable {types : List Type} {fields : Fields types} {values : Values types} {forms : List Form}

/-- The fields as the items of an array. -/
theorem items_eq (h : Fits fields values forms) {vs : List Value} (hfit : ItemsFit forms vs)
    (hvs : WrittenItems vs parts) (hat : AtParts ']' isFirst parts text rest) (expected : String)
    (index : Nat) : ∃ text', fields.items expected index isFirst text = .ok (values, text') ∧
      endItems text' = .ok rest := by
  induction h generalizing isFirst parts text vs index with
  | nil =>
    obtain rfl : vs = [] := hfit
    obtain rfl : parts = [] := hvs
    exact ⟨text, rfl, (nextItem?_close hat).2⟩
  | cons hname hread habsent _ ih =>
    obtain ⟨hallows, hrest⟩ := hfit
    cases vs with
    | nil =>
      have hnext := (nextItem?_close (by rwa [show parts = [] from hvs] at hat)).1
      obtain ⟨text', hitems, hend⟩ := ih hrest hvs hat (index + 1)
      exact ⟨text', by simp [Fields.items, hnext, habsent hallows, Reader.map, hitems], hend⟩
    | cons v vs =>
      obtain ⟨part, parts, hpart, hparts, rfl⟩ := hvs
      obtain ⟨t, ws, ht, hws, hnext, -⟩ := nextItem?_next hat hpart
      have hvalue := hread v hallows t ht [] blanks_nil
        (ws ++ (parts.flatMap (',' :: ·) ++ ']' :: rest))
      rw [List.nil_append] at hvalue
      obtain ⟨text', hitems, hend⟩ := ih hrest hparts (.later hws parts rest) (index + 1)
      exact ⟨text', by simp [Fields.items, hnext, hvalue, Reader.map, hitems], hend⟩

/-- The values of the fields with the names that have been seen. -/
def draftOf : {types : List Type} → Fields types → Values types → List String → Draft types
  | _, .nil, _, _ => ()
  | _, .cons field fields, (value, values), seen =>
    (if field.name ∈ seen then some value else none, draftOf fields values seen)

private theorem blank_eq (fields : Fields types) (values : Values types) :
    fields.blank = draftOf fields values [] := by
  induction fields with
  | nil => rfl
  | cons field fields ih =>
    obtain ⟨value, values⟩ := values
    rw [Fields.blank, draftOf, if_neg List.not_mem_nil, ih values]

/-- Another key changes nothing. -/
theorem draftOf_cons (h : Fits fields values forms) {key : String}
    (hkey : ∀ form ∈ forms, form.name ≠ key) (seen : List String) :
    draftOf fields values (key :: seen) = draftOf fields values seen := by
  induction h with
  | nil => rfl
  | @cons τ types field value form fields values forms hname _ _ _ ih =>
    obtain ⟨hform, hforms⟩ := List.forall_mem_cons.mp hkey
    have hvalue : (if field.name ∈ key :: seen then some value else none) =
        if field.name ∈ seen then some value else none := by
      simp [hname, hform]
    rw [draftOf, draftOf, ih hforms, hvalue]

theorem member?_eq_none (h : Fits fields values forms) {key : String}
    (hkey : ∀ form ∈ forms, form.name ≠ key) (draft : Draft types) : fields.member? key draft = none := by
  induction h with
  | nil => rfl
  | cons hname _ _ _ ih =>
    obtain ⟨hform, hforms⟩ := List.forall_mem_cons.mp hkey
    obtain ⟨value?, draft⟩ := draft
    rw [Fields.member?, if_neg (by rw [hname]; exact fun he => hform he.symm), ih hforms]
    rfl

/-- The member of a field that has not been seen. -/
theorem member?_eq_some (h : Fits fields values forms) (hnodup : (forms.map Form.name).Nodup)
    {form : Form} (hform : form ∈ forms) {v : Value} (hv : form.allows (some v)) {seen : List String}
    (hseen : form.name ∉ seen) :
    ∃ member, fields.member? form.name (draftOf fields values seen) = some member ∧
      ∀ ws ws' t rest, Blanks ws → Blanks ws' → Written v t →
        member (ws ++ ':' :: (ws' ++ (t ++ rest))) =
          .ok (draftOf fields values (form.name :: seen), rest) := by
  induction h with
  | nil => cases hform
  | @cons τ types field value form' fields values forms hname hread _ hfields ih =>
    rw [List.map_cons, List.nodup_cons] at hnodup
    rcases List.mem_cons.mp hform with rfl | hmem
    · have hother : ∀ other ∈ forms, other.name ≠ form.name := fun other ho he =>
        hnodup.1 (he ▸ List.mem_map_of_mem ho)
      have hdraft := draftOf_cons hfields hother seen
      rw [draftOf, Fields.member?, if_pos hname.symm]
      refine ⟨_, rfl, fun ws ws' t rest hws hws' ht => ?_⟩
      rw [colon_append hws]
      simp [draftOf, hname, hseen, hdraft, Reader.map, hread v hv t ht ws' hws' rest]
    · have hne : form'.name ≠ form.name := fun he => hnodup.1 (he ▸ List.mem_map_of_mem hmem)
      obtain ⟨member, hmember, hreads⟩ := ih hnodup.2 hmem
      have hvalue : (if field.name ∈ form.name :: seen then some value else none) =
          if field.name ∈ seen then some value else none := by
        simp [hname, hne]
      rw [draftOf, Fields.member?, if_neg (hname ▸ hne.symm), hmember]
      refine ⟨_, rfl, fun ws ws' t rest hws hws' ht => ?_⟩
      rw [draftOf, hvalue]
      simp only [Reader.map, hreads ws ws' t rest hws hws' ht]

/-- When all members are seen, the fields have their values. -/
theorem finish_eq (h : Fits fields values forms) {seen : List String}
    (habsent : ∀ form ∈ forms, form.name ∉ seen → form.allows none) :
    fields.finish (draftOf fields values seen) = .ok values := by
  induction h with
  | nil => rfl
  | @cons τ types field value form fields values forms hname _ hdefault _ ih =>
    obtain ⟨hform, hforms⟩ := List.forall_mem_cons.mp habsent
    have hvalue : (if field.name ∈ seen then some value else none).or field.absent = some value := by
      split
      · rfl
      · rename_i hseen
        rw [hname] at hseen
        exact hdefault (hform hseen)
    simp [draftOf, Fields.finish, hvalue, ih hforms, Except.map]

/-! ## Objects -/

theorem nextKey?_close (h : AtParts '\x7d' isFirst [] text rest) :
    nextKey? isFirst text = .ok (none, rest) := by
  obtain ⟨ws, hws, rfl⟩ := h.at_end
  rw [nextKey?, skipBlank_append hws, skipBlank_cons (by decide)]
  rfl

private theorem nextKey?_next {key : String} {name : List Char}
    (h : AtParts '\x7d' isFirst ((name ++ ':' :: part) :: parts) text rest)
    (hname : Padded (StringText (points key)) name) : ∃ ws, Blanks ws ∧
      nextKey? isFirst text =
        .ok (some key, ws ++ ':' :: (part ++ (parts.flatMap (',' :: ·) ++ '\x7d' :: rest))) := by
  obtain ⟨ws₁, k, ws₂, hws₁, hk, hws₂, rfl⟩ := hname
  obtain ⟨body, rfl⟩ := hk.exists_cons
  refine ⟨ws₂, hws₂, ?_⟩
  have hstring := string_eq hk
    (ws₂ ++ ':' :: (part ++ (parts.flatMap (',' :: ·) ++ '\x7d' :: rest)))
  have hquote : ∀ t, skipBlank (ws₁ ++ '"' :: t) = '"' :: t := fun t => by
    rw [skipBlank_append hws₁, skipBlank_cons (by decide)]
  obtain ⟨rfl, rfl⟩ | ⟨rfl, ws, hws, rfl⟩ := h.at_next
  · simp [nextKey?, hquote, hstring, Except.map]
  · rw [nextKey?, skipBlank_append hws, skipBlank_cons (by decide)]
    simp [hquote, hstring, Except.map]

/-- The members that are left, when the keys of `seen` have been read: each field is among them at most
once, and not again. -/
def Remaining (forms : List Form) (seen : List String) (members : List (String × Value)) : Prop :=
  ∀ form ∈ forms, ∃ value? : Option Value,
    (members.filter (·.1 = form.name)).map Prod.snd = value?.toList ∧
      ∀ v, value? = some v → form.name ∉ seen ∧ form.allows (some v)

theorem MembersFit.remaining {members : List (String × Value)} (h : MembersFit forms members) :
    Remaining forms [] members := by
  intro form hform
  obtain ⟨value?, hvalues, hallows⟩ := h form hform
  exact ⟨value?, hvalues, fun v hv => ⟨List.not_mem_nil, hv ▸ hallows⟩⟩

section Remaining

variable {seen : List String} {key : String} {v : Value} {members : List (String × Value)}

theorem Remaining.head (h : Remaining forms seen ((key, v) :: members)) {form : Form}
    (hform : form ∈ forms) (hname : form.name = key) :
    form.name ∉ seen ∧ form.allows (some v) ∧ members.filter (·.1 = form.name) = [] := by
  obtain ⟨value?, hvalues, hallows⟩ := h form hform
  rw [List.filter_cons_of_pos (by simp [hname]), List.map_cons] at hvalues
  cases value? with
  | none => cases hvalues
  | some v' =>
    obtain ⟨rfl, hrest⟩ := List.cons.inj hvalues
    obtain ⟨hseen, hv⟩ := hallows _ rfl
    exact ⟨hseen, hv, List.map_eq_nil_iff.mp hrest⟩

theorem Remaining.tail (h : Remaining forms seen ((key, v) :: members)) :
    Remaining forms (key :: seen) members := by
  intro form hform
  by_cases hname : form.name = key
  · obtain ⟨-, -, hnone⟩ := h.head hform hname
    exact ⟨none, by rw [hnone]; rfl, fun _ he => nomatch he⟩
  · obtain ⟨value?, hvalues, hallows⟩ := h form hform
    rw [List.filter_cons_of_neg (by simpa using fun he => hname he.symm)] at hvalues
    refine ⟨value?, hvalues, fun v hv => ?_⟩
    obtain ⟨hseen, hv⟩ := hallows v hv
    exact ⟨by simp [hname, hseen], hv⟩

end Remaining

/-- The members of an object: those of the fields are read, and the others are skipped. -/
theorem membersFrom_eq (h : Fits fields values forms) (hnodup : (forms.map Form.name).Nodup)
    {members : List (String × Value)}
    (hmembers : WrittenMembers (members.map fun m => (points m.1, m.2)) parts)
    (hat : AtParts '\x7d' isFirst parts text rest) {seen : List String}
    (hremaining : Remaining forms seen members) {bound : List Char}
    (hb : text.length < bound.length) :
    membersFrom fields bound isFirst (draftOf fields values seen) text =
      .ok (draftOf fields values ((members.map Prod.fst).reverse ++ seen), rest) := by
  induction members generalizing isFirst parts text seen bound with
  | nil =>
    obtain rfl : parts = [] := hmembers
    obtain ⟨b, shorter, rfl, -⟩ := exists_cons_of_lt hb
    simp [membersFrom, nextKey?_close hat]
  | cons m members ih =>
    obtain ⟨key, v⟩ := m
    obtain ⟨name, part, parts, hname, ⟨ws₁, t, ws₂, hws₁, ht, hws₂, rfl⟩, hparts, rfl⟩ := hmembers
    obtain ⟨b, shorter, rfl, hshorter⟩ := exists_cons_of_lt hb
    obtain ⟨ws, hws, hkey⟩ := nextKey?_next hat hname
    have hlt : (ws₂ ++ (parts.flatMap (',' :: ·) ++ '\x7d' :: rest)).length < shorter.length := by
      refine Nat.lt_of_lt_of_le ?_ hshorter
      rcases hat.at_next with ⟨-, rfl⟩ | ⟨-, ws', -, rfl⟩
      · simp
        omega
      · simp
        omega
    have hmore := ih hparts (.later hws₂ parts rest) hremaining.tail hlt
    rw [List.append_assoc, List.append_assoc] at hkey
    -- A member that is no field leaves the draft as it is, and is skipped whatever its value.
    by_cases hfield : ∃ form ∈ forms, form.name = key
    · obtain ⟨form, hform, rfl⟩ := hfield
      obtain ⟨hseen, hallows, -⟩ := hremaining.head hform rfl
      obtain ⟨member, hmember, hread⟩ := member?_eq_some h hnodup hform hallows hseen
      simp [membersFrom, hkey, hmember, hread ws ws₁ t _ hws hws₁ ht, hmore]
    · have hother : ∀ form ∈ forms, form.name ≠ key := fun form hform he => hfield ⟨form, hform, he⟩
      have hskip := skipValue_eq ht hws₁ (ends_parts (c := '\x7d') hws₂ parts (by decide) rest)
      rw [draftOf_cons h hother] at hmore
      simp [membersFrom, hkey, member?_eq_none h hother, colon_append hws, Except.bind, hskip, hmore]

/-- **A record is read** in each form that it may be written in. -/
theorem reads_record (h : Fits fields values forms) (hnodup : (forms.map Form.name).Nodup)
    {v : Value} (hv : v.IsRecord forms) (label : String) (build : Values types → α) :
    Reads (record label (some fields) build) (build values) v := by
  intro t ht ws hws rest
  cases hv with
  | @array items hitems =>
    obtain ⟨parts, body, hparts, hbody, rfl⟩ := ht
    have htext : '[' :: (body ++ [']']) ++ rest = '[' :: (body ++ ']' :: rest) := by simp
    obtain ⟨text', hread, hend⟩ := items_eq h hitems hparts (.first hbody rest)
      (label ++ " with " ++ toString fields.size ++ " elements") 0
    rw [htext, record, skipBlank_append hws, skipBlank_cons (by decide)]
    simp only [↓reduceIte, bind, Except.bind, hread, hend, pure, Except.pure]
  | @object members hmembers =>
    obtain ⟨parts, body, hparts, hbody, rfl⟩ := ht
    have htext : '\x7b' :: (body ++ ['\x7d']) ++ rest = '\x7b' :: (body ++ '\x7d' :: rest) := by simp
    have hbound : (body ++ '\x7d' :: rest).length < ('\x7b' :: (body ++ '\x7d' :: rest)).length := by
      simp
    have hread := membersFrom_eq h hnodup hparts (.first hbody rest) hmembers.remaining hbound
    have hfinish : fields.finish (draftOf fields values ((members.map Prod.fst).reverse ++ [])) =
        .ok values := by
      refine finish_eq h fun form hform hseen => ?_
      obtain ⟨value?, hvalues, hallows⟩ := hmembers form hform
      -- A field that was not seen has no member, so its value is the one for absence.
      have hnone : members.filter (·.1 = form.name) = [] := by
        rw [List.filter_eq_nil_iff]
        intro m hm he
        refine hseen ?_
        simpa using ⟨m.2, of_decide_eq_true he ▸ hm⟩
      rw [hnone] at hvalues
      cases value? with
      | none => exact hallows
      | some v => cases hvalues
    have hbrace : '\x7b' ≠ '[' := by decide
    rw [← blank_eq] at hread
    rw [htext, record, skipBlank_append hws, skipBlank_cons (by decide)]
    simp only [hbrace, ↓reduceIte, bind, Except.bind, hread, hfinish, pure, Except.pure]

theorem reads_pair {first : Reader α} {second : Reader β} {a : α} {b : β} {v w : Value}
    (ha : Reads first a v) (hb : Reads second b w) :
    Reads (pair (some (first, second))) (a, b) (.array [v, w]) := by
  intro t ht ws hws rest
  obtain ⟨parts, body, hparts, hbody, rfl⟩ := ht
  let fields : Fields [α, β] := .cons ⟨"0", first, none⟩ (.cons ⟨"1", second, none⟩ .nil)
  let forms : List Form := [.required "0" (· = v), .required "1" (· = w)]
  have hfits : Fits fields (a, b, ()) forms := by
    refine .cons rfl ?_ (fun h => nomatch h) (.cons rfl ?_ (fun h => nomatch h) .nil)
    · rintro _ ⟨_, ⟨rfl⟩, rfl⟩
      exact ha
    · rintro _ ⟨_, ⟨rfl⟩, rfl⟩
      exact hb
  have hfit : ItemsFit forms [v, w] := ⟨⟨v, rfl, rfl⟩, ⟨w, rfl, rfl⟩, rfl⟩
  have htext : '[' :: (body ++ [']']) ++ rest = '[' :: (body ++ ']' :: rest) := by simp
  obtain ⟨text', hread, hend⟩ := items_eq hfits hfit hparts (.first hbody rest)
    "a tuple of size 2" 0
  rw [htext, pair, skipBlank_append hws, skipBlank_cons (by decide)]
  simp only [bind, Except.bind, hread, hend, pure, Except.pure, fields]

/-! ## Variants -/

theorem variantName_eq {variants : List (Variant α)} {name : String} {found : Variant α}
    (h : variants.find? (·.name = name) = some found) {t : List Char}
    (ht : StringText (points name) t) {ws : List Char} (hws : Blanks ws) (rest : List Char) :
    variantName variants (ws ++ (t ++ rest)) = .ok (found, rest) := by
  obtain ⟨body, rfl⟩ := ht.exists_cons
  rw [variantName, skipBlank_append hws, List.cons_append, skipBlank_cons (by decide)]
  simp [string_eq ht, h]

/-- A variant with content is an object with one member. -/
theorem reads_variant {variants : List (Variant α)} {name : String} {found : Variant α}
    (h : variants.find? (·.name = name) = some found) {a : α} {v : Value}
    (hread : Reads found.content.read a v) :
    Reads (variant variants true) a (.ofMembers [(name, v)]) := by
  intro t ht ws hws rest
  obtain ⟨parts, body, hparts, hbody, rfl⟩ := ht
  obtain ⟨key, part, parts, hkey, hpart, hnil, rfl⟩ := hparts
  obtain rfl : parts = [] := hnil
  obtain ⟨ws₁, k, ws₂, hws₁, hk, hws₂, rfl⟩ := hkey
  obtain ⟨ws₃, t, ws₄, hws₃, ht, hws₄, rfl⟩ := hpart
  obtain rfl := hbody.eq_append
  have htext : '\x7b' :: (ws₁ ++ (k ++ ws₂) ++ ':' :: (ws₃ ++ (t ++ ws₄)) ++
      [].flatMap (',' :: ·) ++ ['\x7d']) ++ rest =
        '\x7b' :: (ws₁ ++ (k ++ (ws₂ ++ ':' :: (ws₃ ++ (t ++ (ws₄ ++ '\x7d' :: rest)))))) := by simp
  have hname := variantName_eq h hk hws₁ (ws₂ ++ ':' :: (ws₃ ++ (t ++ (ws₄ ++ '\x7d' :: rest))))
  have hvalue := hread t ht ws₃ hws₃ (ws₄ ++ '\x7d' :: rest)
  have hend : endMembers (ws₄ ++ '\x7d' :: rest) = .ok rest := by
    rw [endMembers, skipBlank_append hws₄, skipBlank_cons (by decide)]
    rfl
  rw [htext, variant, skipBlank_append hws, skipBlank_cons (by decide)]
  simp [hname, colon_append hws₂, hvalue, hend, bind, Except.bind, pure, Except.pure]

/-- A variant without content is its name, or an object with `null` under its name. -/
theorem reads_variant_alone {variants : List (Variant α)} {name : String} {found : Variant α}
    (h : variants.find? (·.name = name) = some found) {a : α} (halone : found.content.alone = .ok a)
    (hasRoom : Bool) : Reads (variant variants hasRoom) a (.ofText name) := by
  intro t ht ws hws rest
  have hname := variantName_eq h ht blanks_nil rest
  obtain ⟨body, rfl⟩ := StringText.exists_cons ht
  rw [variant, skipBlank_append hws, List.cons_append, skipBlank_cons (by decide)]
  rw [List.nil_append, List.cons_append] at hname
  simp [hname, halone, bind, Except.bind, pure, Except.pure]

end TinyGen.Json
