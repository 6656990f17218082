import TinyGen.Json.Text

/-!
# Readers of typed values

A reader takes a value of one type from the front of a text in one pass, so of several defects the
first in the text is reported. Readers are built for the shapes a parse tree has: strings, lists,
pairs, optional values, records and variants.

* A record is an object with its fields in any order, where unknown keys are skipped, or an array of
  its fields in declaration order.
* A variant is an object with the variant's name as its only key, or the name alone when the variant
  has no content.

Reading nests only as deeply as there is room for open brackets. A shape with brackets takes its
content as an option, and `none` says that no bracket may be opened any more.
-/

namespace TinyGen.Json

/-- Reads a value from the front of a text and gives what remains. -/
abbrev Reader (α : Type) : Type := List Char → Except Defect (α × List Char)

namespace Reader

variable {α β : Type}

/-- Applies a function to the value read. -/
def map (f : α → β) (read : Reader α) : Reader β := fun text =>
  match read text with
  | .error d => .error d
  | .ok (a, text) => .ok (f a, text)

end Reader

/-- The defect of a text that starts with something else than what was expected. The value found is
read as far as its name in the message needs it. -/
def mismatch (expected : String) : List Char → Defect
  | [] => .truncated
  | c :: text =>
    let unfit (found : Found) : Defect := .unfit (.invalidType found expected)
    let number (read : Except Defect (Number × List Char)) : Defect :=
      match read with
      | .error d => d
      | .ok (n, _) => (n.found?.map unfit).getD .malformed
    let fixed (rest : List Char) (found : Found) : Defect :=
      match word rest text with
      | .error d => d
      | .ok _ => unfit found
    if c = 'n' then fixed ['u', 'l', 'l'] .null
    else if c = 't' then fixed ['r', 'u', 'e'] (.boolean true)
    else if c = 'f' then fixed ['a', 'l', 's', 'e'] (.boolean false)
    else if c = '-' then number (scanNumber .truncated true text)
    else if c.isDigit then number (scanNumber .truncated false (c :: text))
    else if c = '"' then
      match string text with
      | .error d => d
      | .ok (s, _) => unfit (.string s)
    else if c = '[' then unfit .sequence
    else if c = '\x7b' then unfit .map
    else .malformed

/-- Reads a string. -/
def text : Reader String := fun text =>
  match skipBlank text with
  | '"' :: text => string text
  | text => .error (mismatch "a string" text)

/-- Reads `null`. -/
def unit : Reader Unit := fun text =>
  match skipBlank text with
  | 'n' :: text => (word ['u', 'l', 'l'] text).map ((), ·)
  | text => .error (mismatch "unit" text)

/-- Reads a value or `null`. -/
def optional {α : Type} (read : Reader α) : Reader (Option α) := fun text =>
  match skipBlank text with
  | 'n' :: text => (word ['u', 'l', 'l'] text).map (none, ·)
  | text => read.map some text

/-! ## Arrays -/

/-- Goes to the next item of an array: the text at the item, or nothing when the array ends there. -/
def nextItem? (isFirst : Bool) (text : List Char) : Except Defect (Option (List Char)) :=
  match skipBlank text with
  | [] => .error .truncated
  | c :: rest =>
    if c = ']' then .ok none
    else if isFirst then .ok (some (c :: rest))
    else if c = ',' then
      match skipBlank rest with
      | [] => .error .truncated
      | d :: rest => if d = ']' then .error .malformed else .ok (some (d :: rest))
    else .error .malformed

/-- The end of an array, where no further item may stand. -/
def endItems (text : List Char) : Except Defect (List Char) :=
  match skipBlank text with
  | [] => .error .truncated
  | c :: text => if c = ']' then .ok text else .error .malformed

/-- The items of a list up to its end; `read` holds those read so far, the last one first. -/
def itemsFrom {α : Type} (item : Reader α) : (bound : List Char) → (isFirst : Bool) →
    (read : List α) → Reader (List α)
  | [], _, _, _ => .error .truncated
  | _ :: bound, isFirst, read, text =>
    match nextItem? isFirst text with
    | .error d => .error d
    | .ok none => (endItems text).map (read.reverse, ·)
    | .ok (some text) =>
      match item text with
      | .error d => .error d
      | .ok (a, text) => itemsFrom item bound false (a :: read) text

/-- Reads a list. -/
def list {α : Type} (item? : Option (Reader α)) : Reader (List α) := fun text =>
  match skipBlank text with
  | '[' :: rest =>
    match item? with
    | none => .error .malformed
    | some item => itemsFrom item ('[' :: rest) true [] rest
  | text => .error (mismatch "a sequence" text)

/-! ## Records -/

/-- A field: its name, how its value is read, and the value it has when it is left out. -/
structure Field (α : Type) where
  name : String
  read : Reader α
  absent : Option α

/-- Fields in declaration order. -/
inductive Fields : List Type → Type 1 where
  | nil : Fields []
  | cons {α : Type} {types : List Type} (field : Field α) (rest : Fields types) :
    Fields (α :: types)

/-- One value for each type. -/
def Values : List Type → Type
  | [] => Unit
  | α :: types => α × Values types

/-- The values read so far. -/
def Draft : List Type → Type
  | [] => Unit
  | α :: types => Option α × Draft types

namespace Fields

/-- Number of fields. -/
def size : {types : List Type} → Fields types → Nat
  | _, .nil => 0
  | _, .cons _ rest => rest.size + 1

/-- The draft with no value read. -/
def blank : {types : List Type} → Fields types → Draft types
  | _, .nil => ()
  | _, .cons _ rest => (none, rest.blank)

/-- How the value under a key is added to a draft, unless no field has that name. A key given twice
is refused before its value is looked at. -/
def member? : {types : List Type} → Fields types → (key : String) → Draft types →
    Option (Reader (Draft types))
  | _, .nil, _, _ => none
  | _, .cons field rest, key, (value?, draft) =>
    if key = field.name then
      some fun text =>
        match value? with
        | some _ => .error (.unfit (.duplicateField field.name))
        | none =>
          match colon text with
          | .error d => .error d
          | .ok text => field.read.map (fun value => (some value, draft)) text
    else (rest.member? key draft).map (Reader.map fun draft => (value?, draft))

/-- The values of a draft, where a field left out has its absent value. -/
def finish : {types : List Type} → Fields types → Draft types → Except Defect (Values types)
  | _, .nil, _ => .ok ()
  | _, .cons field rest, (value?, draft) =>
    match value?.or field.absent with
    | none => .error (.unfit (.missingField field.name))
    | some value => (rest.finish draft).map (value, ·)

/-- The values as the items of an array. After the last item the remaining fields take their absent
values; `index` counts the fields before. -/
def items (expected : String) : {types : List Type} → Fields types → (index : Nat) →
    (isFirst : Bool) → Reader (Values types)
  | _, .nil, _, _ => fun text => .ok ((), text)
  | _, .cons field rest, index, isFirst => fun text =>
    match nextItem? isFirst text with
    | .error d => .error d
    | .ok none =>
      match field.absent with
      | none => .error (.unfit (.invalidLength index expected))
      | some value => (rest.items expected (index + 1) isFirst).map (value, ·) text
    | .ok (some text) =>
      match field.read text with
      | .error d => .error d
      | .ok (value, text) => (rest.items expected (index + 1) false).map (value, ·) text

end Fields

/-- Goes to the next member of an object: its key and the text after it, or nothing and the text
after the end of the object. -/
def nextKey? (isFirst : Bool) (text : List Char) : Except Defect (Option String × List Char) :=
  let key : List Char → Except Defect (Option String × List Char)
    | [] => .error .truncated
    | c :: text =>
      if c = '"' then (string text).map fun (key, text) => (some key, text) else .error .malformed
  match skipBlank text with
  | [] => .error .truncated
  | c :: rest =>
    if c = '\x7d' then .ok (none, rest)
    else if isFirst then key (c :: rest)
    else if c = ',' then key (skipBlank rest)
    else .error .malformed

/-- The members of an object up to its end. -/
def membersFrom {types : List Type} (fields : Fields types) : (bound : List Char) →
    (isFirst : Bool) → Draft types → Reader (Draft types)
  | [], _, _, _ => .error .truncated
  | _ :: bound, isFirst, draft, text =>
    match nextKey? isFirst text with
    | .error d => .error d
    | .ok (none, text) => .ok (draft, text)
    | .ok (some key, text) =>
      match fields.member? key draft with
      | some member =>
        match member text with
        | .error d => .error d
        | .ok (draft, text) => membersFrom fields bound false draft text
      | none =>
        match (colon text).bind skipValue with
        | .error d => .error d
        | .ok text => membersFrom fields bound false draft text

/-- Reads a record: an object of its members, or an array of its fields. -/
def record {types : List Type} {α : Type} (label : String) (fields? : Option (Fields types))
    (build : Values types → α) : Reader α := fun text =>
  match skipBlank text with
  | [] => .error .truncated
  | c :: rest =>
    if c = '[' then
      match fields? with
      | none => .error .malformed
      | some fields => do
        let expected := label ++ " with " ++ toString fields.size ++ " elements"
        let (values, text) ← fields.items expected 0 true rest
        let text ← endItems text
        return (build values, text)
    else if c = '\x7b' then
      match fields? with
      | none => .error .malformed
      | some fields => do
        let (draft, text) ← membersFrom fields (c :: rest) true fields.blank rest
        let values ← fields.finish draft
        return (build values, text)
    else .error (mismatch label (c :: rest))

/-- Reads an array of exactly two items. -/
def pair {α β : Type} (items? : Option (Reader α × Reader β)) : Reader (α × β) := fun text =>
  match skipBlank text with
  | '[' :: rest =>
    match items? with
    | none => .error .malformed
    | some (first, second) => do
      let fields : Fields [α, β] := .cons ⟨"0", first, none⟩ (.cons ⟨"1", second, none⟩ .nil)
      let ((a, b, _), text) ← fields.items "a tuple of size 2" 0 true rest
      let text ← endItems text
      return ((a, b), text)
  | text => .error (mismatch "a tuple of size 2" text)

/-! ## Variants -/

/-- Content of a variant. -/
inductive Content (α : Type) where
  /-- No content. -/
  | none (value : α)
  /-- A single value. -/
  | single (read : Reader α)
  /-- The fields of a record. -/
  | fields (read : Reader α)

/-- A variant: its name and its content. -/
structure Variant (α : Type) where
  name : String
  content : Content α

/-- Reads the content after a variant's name. -/
def Content.read {α : Type} : Content α → Reader α
  | .none value => unit.map fun _ => value
  | .single read => read
  | .fields read => read

/-- The value of a variant given by its name alone. -/
def Content.alone {α : Type} : Content α → Except Defect α
  | .none value => .ok value
  | .single _ => .error (.unfit (.invalidType .unitVariant "newtype variant"))
  | .fields _ => .error (.unfit (.invalidType .unitVariant "struct variant"))

/-- Reads the name of a variant, which is a string. -/
def variantName {α : Type} (variants : List (Variant α)) : Reader (Variant α) := fun text =>
  match skipBlank text with
  | [] => .error .truncated
  | '"' :: text =>
    match string text with
    | .error d => .error d
    | .ok (name, text) =>
      match variants.find? (·.name = name) with
      | some variant => .ok (variant, text)
      | none => .error (.unfit (.unknownVariant name (variants.map (·.name))))
  | _ :: _ => .error .malformed

/-- The end of an object with one member. -/
def endMembers (text : List Char) : Except Defect (List Char) :=
  match skipBlank text with
  | [] => .error .truncated
  | c :: text => if c = '\x7d' then .ok text else .error .malformed

/-- Reads one of several variants. -/
def variant {α : Type} (variants : List (Variant α)) (hasRoom : Bool) : Reader α := fun text =>
  match skipBlank text with
  | [] => .error .truncated
  | c :: rest =>
    if c = '\x7b' then
      if hasRoom then do
        let (variant, text) ← variantName variants rest
        let text ← colon text
        let (value, text) ← variant.content.read text
        let text ← endMembers text
        return (value, text)
      else .error .malformed
    else if c = '"' then do
      let (variant, text) ← variantName variants (c :: rest)
      let value ← variant.content.alone
      return (value, text)
    else .error .malformed

end TinyGen.Json
