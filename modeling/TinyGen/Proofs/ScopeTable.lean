import TinyGen.ScopeTable

/-!
# Contents of scope tables

What a table holds after insertions: `symbols?_insert` and `ids_insert_of_not_mem` for one,
`symbols?_fill` and `ids_fill` for a list of them. A scope that is inserted several times stands where
it was inserted first and holds what was inserted last.

`lookup?_eq_innermost?` says what looking up a name means: the last symbol of that name in the first
scope that has one.
-/

namespace TinyGen

/-- An earlier entry hides the later ones of its key. -/
theorem lookup_cons {α β : Type} [BEq α] [LawfulBEq α] [DecidableEq α] (key other : α) (value : β)
    (entries : List (α × β)) :
    ((other, value) :: entries).lookup key = if key = other then some value else entries.lookup key := by
  by_cases h : key = other
  · rw [if_pos h, h, List.lookup_cons_self]
  · rw [if_neg h, List.lookup_cons, beq_eq_false_iff_ne.mpr h]

namespace ScopeTable

variable {t : ScopeTable} {id id' : ScopeId} {symbols : List Symbol}

/-- The scopes of the table, in order. -/
def ids (t : ScopeTable) : List ScopeId :=
  t.scopes.map Prod.fst

theorem mem_ids_iff : id ∈ t.ids ↔ t.contains id = true := by
  obtain ⟨scopes⟩ := t
  show id ∈ scopes.map Prod.fst ↔ (scopes.lookup id).isSome = true
  induction scopes with
  | nil => simp
  | cons entry rest ih =>
    obtain ⟨other, symbols⟩ := entry
    rw [List.map_cons, List.mem_cons, ih, lookup_cons]
    by_cases h : id = other <;> simp [h]

/-! ## One insertion -/

/-- Only the scope that is put in changes. -/
theorem symbols?_insert (t : ScopeTable) (id id' : ScopeId) (symbols : List Symbol) :
    (t.insert id symbols).symbols? id' = if id' = id then some symbols else t.symbols? id' := by
  obtain ⟨scopes⟩ := t
  show (insertIn id symbols scopes).lookup id' = if id' = id then some symbols else scopes.lookup id'
  induction scopes with
  | nil => exact lookup_cons id' id symbols []
  | cons entry rest ih =>
    obtain ⟨other, old⟩ := entry
    by_cases ho : other = id
    · rw [insertIn, if_pos ho, lookup_cons, lookup_cons, ho]
      split <;> rfl
    · rw [insertIn, if_neg ho, lookup_cons, lookup_cons, ih]
      by_cases h : id' = id
      · rw [if_pos h, h, if_neg (Ne.symm ho), if_pos rfl]
      · rw [if_neg h, if_neg h]

theorem contains_insert (t : ScopeTable) (id id' : ScopeId) (symbols : List Symbol) :
    (t.insert id symbols).contains id' = (decide (id' = id) || t.contains id') := by
  rw [contains, symbols?_insert]
  by_cases h : id' = id <;> simp [h, contains]

/-- The last symbols put in for a scope count. -/
theorem insert_insert (t : ScopeTable) (id : ScopeId) (old symbols : List Symbol) :
    (t.insert id old).insert id symbols = t.insert id symbols := by
  obtain ⟨scopes⟩ := t
  show ScopeTable.mk (insertIn id symbols (insertIn id old scopes)) = ⟨insertIn id symbols scopes⟩
  congr 1
  induction scopes with
  | nil => simp [insertIn]
  | cons entry rest ih =>
    obtain ⟨other, previous⟩ := entry
    by_cases ho : other = id
    · simp [insertIn, ho]
    · simp [insertIn, ho, ih]

theorem insert_of_not_mem (h : id ∉ t.ids) (symbols : List Symbol) :
    t.insert id symbols = ⟨t.scopes ++ [(id, symbols)]⟩ := by
  obtain ⟨scopes⟩ := t
  show ScopeTable.mk (insertIn id symbols scopes) = ⟨scopes ++ [(id, symbols)]⟩
  congr 1
  induction scopes with
  | nil => rfl
  | cons entry rest ih =>
    simp only [ids, List.map_cons, List.mem_cons, not_or] at h
    rw [insertIn, if_neg (Ne.symm h.1), ih h.2, List.cons_append]

/-- A scope keeps its place. -/
theorem ids_insert_of_mem (h : id ∈ t.ids) (symbols : List Symbol) :
    (t.insert id symbols).ids = t.ids := by
  obtain ⟨scopes⟩ := t
  show (insertIn id symbols scopes).map Prod.fst = scopes.map Prod.fst
  induction scopes with
  | nil => cases h
  | cons entry rest ih =>
    obtain ⟨other, old⟩ := entry
    by_cases ho : other = id
    · simp [insertIn, ho]
    · have hr : id ∈ rest.map Prod.fst := by
        rcases List.mem_cons.mp h with he | hr
        · exact absurd he.symm ho
        · exact hr
      rw [insertIn, if_neg ho, List.map_cons, List.map_cons, ih hr]

/-- A new scope comes last. -/
theorem ids_insert_of_not_mem (h : id ∉ t.ids) (symbols : List Symbol) :
    (t.insert id symbols).ids = t.ids ++ [id] := by
  rw [insert_of_not_mem h, ids, List.map_append]
  rfl

theorem nodup_ids_insert (h : t.ids.Nodup) (id : ScopeId) (symbols : List Symbol) :
    (t.insert id symbols).ids.Nodup := by
  by_cases hm : id ∈ t.ids
  · rw [ids_insert_of_mem hm]
    exact h
  · rw [ids_insert_of_not_mem hm]
    refine List.nodup_append.mpr ⟨h, List.nodup_cons.mpr ⟨List.not_mem_nil, .nil⟩, ?_⟩
    rintro other ho _ hid rfl
    exact hm (List.mem_singleton.mp hid ▸ ho)

/-- A table without repeated scopes is determined by its scopes and their symbols. -/
theorem scopes_eq_map (h : t.ids.Nodup) :
    t.scopes = t.ids.map fun id => (id, (t.symbols? id).getD []) := by
  obtain ⟨scopes⟩ := t
  induction scopes with
  | nil => rfl
  | cons entry rest ih =>
    obtain ⟨id, symbols⟩ := entry
    obtain ⟨hid, hrest⟩ := List.nodup_cons.mp h
    have htail : ∀ other ∈ rest.map Prod.fst,
        (other, (rest.lookup other).getD []) =
          (other, (((id, symbols) :: rest).lookup other).getD []) := by
      intro other ho
      have hne : other ≠ id := fun he => hid (he ▸ ho)
      rw [lookup_cons, if_neg hne]
    show (id, symbols) :: rest = (id, (((id, symbols) :: rest).lookup id).getD []) ::
      (rest.map Prod.fst).map fun other => (other, (((id, symbols) :: rest).lookup other).getD [])
    rw [lookup_cons, if_pos rfl, Option.getD_some, ← List.map_congr_left htail]
    exact congrArg _ (ih hrest)

/-! ## Several insertions -/

/-- Sets the symbols of several scopes, one after another. -/
def fill (t : ScopeTable) (bodies : List (ScopeId × List Symbol)) : ScopeTable :=
  bodies.foldl (fun t body => t.insert body.1 body.2) t

/-- A scope holds the symbols that were set last. -/
theorem symbols?_fill (t : ScopeTable) (bodies : List (ScopeId × List Symbol)) (id : ScopeId) :
    (t.fill bodies).symbols? id = (bodies.reverse.lookup id).or (t.symbols? id) := by
  induction bodies generalizing t with
  | nil => rfl
  | cons body rest ih =>
    obtain ⟨other, symbols⟩ := body
    show ((t.insert other symbols).fill rest).symbols? id = _
    rw [ih, symbols?_insert, List.reverse_cons, List.lookup_append, Option.or_assoc, lookup_cons]
    by_cases h : id = other
    · rw [if_pos h, if_pos h, Option.some_or]
    · rw [if_neg h, if_neg h, List.lookup_nil, Option.none_or]

/-- Scopes stand in the order in which they were set first. -/
theorem ids_fill (t : ScopeTable) (bodies : List (ScopeId × List Symbol)) :
    (t.fill bodies).ids = t.ids ++ ((bodies.map Prod.fst).removeAll t.ids).eraseDups := by
  induction bodies generalizing t with
  | nil => simp [fill]
  | cons body rest ih =>
    obtain ⟨id, symbols⟩ := body
    show ((t.insert id symbols).fill rest).ids = _
    rw [ih]
    by_cases h : id ∈ t.ids
    · rw [ids_insert_of_mem h]
      simp [List.removeAll, h]
    · have hb : ∀ x : ScopeId, (x == id) = decide (x = id) := fun _ => rfl
      rw [ids_insert_of_not_mem h, List.append_assoc]
      simp [List.removeAll, h, List.eraseDups_cons, List.filter_filter, Bool.and_comm, hb]

/-- No scope is listed twice. -/
theorem nodup_ids_fill (h : t.ids.Nodup) (bodies : List (ScopeId × List Symbol)) :
    (t.fill bodies).ids.Nodup := by
  induction bodies generalizing t with
  | nil => exact h
  | cons body rest ih => exact ih (nodup_ids_insert h body.1 body.2)

/-- What filling an empty table gives. -/
theorem scopes_fill_empty (bodies : List (ScopeId × List Symbol)) :
    (empty.fill bodies).scopes =
      (bodies.map Prod.fst).eraseDups.map fun id => (id, (bodies.reverse.lookup id).getD []) := by
  have hids : (empty.fill bodies).ids = (bodies.map Prod.fst).eraseDups := by
    have hnone : (bodies.map Prod.fst).removeAll [] = bodies.map Prod.fst :=
      List.filter_eq_self.mpr fun _ _ => rfl
    rw [ids_fill, show empty.ids = [] from rfl, hnone, List.nil_append]
  rw [scopes_eq_map (nodup_ids_fill (t := empty) List.nodup_nil bodies), hids]
  congr 1
  funext id
  rw [symbols?_fill, show empty.symbols? id = none from rfl, Option.or_none]

/-- Scopes that are all new are added at the end, as they are. -/
theorem scopes_fill_of_nodup {bodies : List (ScopeId × List Symbol)}
    (h : (t.ids ++ bodies.map Prod.fst).Nodup) : (t.fill bodies).scopes = t.scopes ++ bodies := by
  induction bodies generalizing t with
  | nil => simp [fill]
  | cons body rest ih =>
    obtain ⟨id, symbols⟩ := body
    have hid : id ∉ t.ids := by
      intro hm
      exact (List.nodup_append.mp h).2.2 id hm id List.mem_cons_self rfl
    have hrest : ((t.insert id symbols).ids ++ rest.map Prod.fst).Nodup := by
      rw [ids_insert_of_not_mem hid, List.append_assoc]
      exact h
    show ((t.insert id symbols).fill rest).scopes = _
    rw [ih hrest, insert_of_not_mem hid, List.append_assoc]
    rfl

/-! ## Names -/

/-- The last symbol of a name in the first of the scopes that has one. -/
def innermost? (t : ScopeTable) (ident : String) : List ScopeId → Option Symbol
  | [] => none
  | id :: outer =>
    match (((t.symbols? id).getD []).filter (·.ident = ident)).getLast? with
    | some symbol => some symbol
    | none => t.innermost? ident outer

theorem latest?_eq_getLast? (symbols : List Symbol) (ident : String) :
    latest? symbols ident = (symbols.filter (·.ident = ident)).getLast? := by
  rw [latest?, ← List.head?_filter, List.filter_reverse, List.head?_reverse]

theorem lookup?_eq_innermost? (t : ScopeTable) (scopes : List ScopeId) (ident : String) :
    t.lookup? scopes ident = t.innermost? ident scopes := by
  induction scopes with
  | nil => rfl
  | cons id outer ih =>
    rw [lookup?] at ih
    rw [lookup?, List.findSome?_cons, innermost?, ih]
    cases t.symbols? id with
    | none => rfl
    | some symbols =>
      rw [Option.bind_some, Option.getD_some, latest?_eq_getLast?]
      cases (symbols.filter (·.ident = ident)).getLast? <;> rfl

/-- A name is looked up in the given scopes only. -/
theorem lookup?_congr {t t' : ScopeTable} {scopes : List ScopeId}
    (h : ∀ id ∈ scopes, t.symbols? id = t'.symbols? id) (ident : String) :
    t.lookup? scopes ident = t'.lookup? scopes ident := by
  induction scopes with
  | nil => rfl
  | cons id outer ih =>
    have ih := ih fun id' hid' => h id' (List.mem_cons_of_mem _ hid')
    rw [lookup?, lookup?] at ih ⊢
    rw [List.findSome?_cons, List.findSome?_cons, h id List.mem_cons_self, ih]

/-- A symbol that is found is in one of the given scopes. -/
theorem mem_of_lookup? {t : ScopeTable} {scopes : List ScopeId} {ident : String} {symbol : Symbol}
    (h : t.lookup? scopes ident = some symbol) :
    ∃ id ∈ scopes, symbol ∈ (t.symbols? id).getD [] ∧ symbol.ident = ident := by
  obtain ⟨id, hid, hs⟩ := List.exists_of_findSome?_eq_some h
  obtain ⟨symbols, hsymbols, hlatest⟩ := Option.bind_eq_some_iff.mp hs
  refine ⟨id, hid, ?_, by simpa using List.find?_some hlatest⟩
  rw [hsymbols]
  exact List.mem_reverse.mp (List.mem_of_find?_eq_some hlatest)

end ScopeTable

end TinyGen
