import TinyGen.Compile
import TinyGen.Proofs.Mentions
import TinyGen.Proofs.SelectionMeaning

/-!
# Storage of compiled programs

A target program declares storage for the names of the scope table, by name alone: one line for each,
that of the symbol which is first in the table. The code of the program uses names as they are resolved
in their scopes.

* `Compilation.closed`: every name that the code works on is declared, and each name is declared once.
* `Compilation.transfers_served`: which line a read or written name finds. It is the one that the
  resolved symbol needs if and only if the first symbol of the name needs the same;
  `shadowed_string_storage` has names for which it does not.
-/

namespace TinyGen

/-! ## First symbols -/

namespace ScopeTable

/-- Of a name that has not been seen, the first symbol is kept. -/
private theorem filter_firstOfName (seen : List String) (symbols : List Symbol) (x : String) :
    (firstOfName seen symbols).filter (·.ident = x) =
      if x ∈ seen then [] else (symbols.find? (·.ident = x)).toList := by
  induction symbols generalizing seen with
  | nil => simp [firstOfName]
  | cons s rest ih =>
    by_cases hx : s.ident = x
    · subst hx
      by_cases hs : s.ident ∈ seen
      · simp [firstOfName, ih, hs]
      · simp [firstOfName, ih, hs]
    · have hx' : x ≠ s.ident := Ne.symm hx
      by_cases hs : s.ident ∈ seen
      · simp [firstOfName, ih, hs, hx]
      · simp [firstOfName, ih, hs, hx, hx']

/-- The names of kept symbols, in the order in which they are met first. -/
private theorem map_ident_firstOfName (seen : List String) (symbols : List Symbol) :
    (firstOfName seen symbols).map Symbol.ident =
      ((symbols.map Symbol.ident).filter (· ∉ seen)).eraseDups := by
  induction symbols generalizing seen with
  | nil => rfl
  | cons s rest ih =>
    by_cases hs : s.ident ∈ seen
    · simp [firstOfName, ih, hs]
    · have hmore : ∀ x, (!x == s.ident && decide (x ∉ seen)) = decide (x ∉ s.ident :: seen) := by
        intro x
        simp [beq_eq_decide]
      rw [firstOfName, if_neg hs, List.map_cons, ih, List.map_cons, List.filter_cons_of_pos (by simpa),
        List.eraseDups_cons, List.filter_filter]
      simp only [hmore]

theorem filter_storage (t : ScopeTable) (x : String) :
    t.storage.filter (·.ident = x) = (t.allSymbols.find? (·.ident = x)).toList := by
  rw [storage, filter_firstOfName, if_neg List.not_mem_nil]

theorem map_ident_storage (t : ScopeTable) :
    t.storage.map Symbol.ident = (t.allSymbols.map Symbol.ident).eraseDups := by
  rw [storage, map_ident_firstOfName, List.filter_eq_self.mpr fun x _ => by simp]

theorem nodup_storage (t : ScopeTable) : (t.storage.map Symbol.ident).Nodup := by
  rw [List.nodup_iff_count]
  intro x
  have hcount : (t.storage.map Symbol.ident).count x = (t.storage.filter (·.ident = x)).length := by
    rw [List.count, List.countP_map, List.countP_eq_length_filter]
    congr 1
  rw [hcount, filter_storage]
  cases t.allSymbols.find? (·.ident = x) <;> simp

/-- A resolved name is one of the table, and has the name that was looked up. -/
theorem mem_allSymbols_of_innermost? {t : ScopeTable} {x : String} {scopes : List ScopeId}
    {symbol : Symbol} (h : t.innermost? x scopes = some symbol) :
    symbol ∈ t.allSymbols ∧ symbol.ident = x := by
  rw [← lookup?_eq_innermost?] at h
  obtain ⟨id, -, hmem, hident⟩ := mem_of_lookup? h
  refine ⟨?_, hident⟩
  cases hs : t.symbols? id with
  | none => rw [hs] at hmem; cases hmem
  | some symbols =>
    rw [hs] at hmem
    obtain ⟨before, after, hscopes, -⟩ := List.lookup_eq_some_iff.mp hs
    exact List.mem_flatMap.mpr ⟨(id, symbols), by simp [hscopes], hmem⟩

end ScopeTable

/-! ## Compilations -/

/-- What the four stages make of a program, when all of them succeed. -/
structure Compilation (program : ParseTree.Program) where
  table : ScopeTable
  statements : List Statement
  code : ThreeAddress.Code
  target : Target.Program
  table_eq : program.scopeTable = .ok table
  statements_eq : program.statements table = .ok statements
  code_eq : ThreeAddress.Code.ofStatements statements = .ok code
  target_eq : ParseTree.Program.target table code = .ok target

namespace Target

theorem declared?_declaration (s : Symbol) : (declaration s).declared? = some s.ident := by
  obtain ⟨ident, _ | _⟩ := s <;> rfl

theorem transfer?_declaration (s : Symbol) : (declaration s).transfer? = none := by
  obtain ⟨ident, _ | _⟩ := s <;> rfl

/-- The lines that declare `x` are one line, that of the first symbol with this name. -/
structure StoredAs (t : ScopeTable) (instrs : List Instr) (x : String) (first : Symbol) : Prop where
  found : t.allSymbols.find? (·.ident = x) = some first
  line : instrs.filter (·.declared? = some x) = [declaration first]

/-- A name of the program that is read or written, and the instruction that does so: the type of the
instruction is that of the symbol which the name is resolved to. The name has one line; this is the line
that the symbol needs, `str` with its text for a string and `var` for a number, exactly if the first
symbol of the name needs it. -/
inductive Served (t : ScopeTable) (instrs : List Instr) : Access → Instr → Prop where
  | writeString {scopes : List ScopeId} {x literal : String} {first : Symbol}
      (resolved : t.innermost? x scopes = some ⟨x, .str literal⟩)
      (declared : StoredAs t instrs x first)
      (needed : .str x literal ∈ instrs ↔ first.shape = .str literal) :
      Served t instrs ⟨.write, scopes, x⟩ (.write .string x)
  | writeNumber {scopes : List ScopeId} {x : String} {ty : NumTy} {first : Symbol}
      (resolved : t.innermost? x scopes = some ⟨x, .num ty⟩)
      (declared : StoredAs t instrs x first)
      (needed : .var x ∈ instrs ↔ ∃ ty', first.shape = .num ty') :
      Served t instrs ⟨.write, scopes, x⟩ (.write ty.toTy x)
  | read {scopes : List ScopeId} {x : String} {ty : NumTy} {first : Symbol}
      (resolved : t.innermost? x scopes = some ⟨x, .num ty⟩)
      (declared : StoredAs t instrs x first)
      (needed : .var x ∈ instrs ↔ ∃ ty', first.shape = .num ty') :
      Served t instrs ⟨.read, scopes, x⟩ (.read ty x)

namespace StoredAs

variable {t : ScopeTable} {instrs : List Instr} {x : String} {first : Symbol}

theorem ident_eq (h : StoredAs t instrs x first) : first.ident = x := by
  simpa using List.find?_some h.found

theorem mem_iff (h : StoredAs t instrs x first) {i : Instr} (hi : i.declared? = some x) :
    i ∈ instrs ↔ i = declaration first := by
  have hmem : i ∈ instrs.filter (·.declared? = some x) ↔ i ∈ instrs := by
    simp [List.mem_filter, hi]
  rw [← hmem, h.line, List.mem_singleton]

theorem str_mem_iff (h : StoredAs t instrs x first) (literal : String) :
    .str x literal ∈ instrs ↔ first.shape = .str literal := by
  rw [h.mem_iff rfl, ← h.ident_eq]
  obtain ⟨ident, _ | text⟩ := first <;> simp [declaration, eq_comm]

theorem var_mem_iff (h : StoredAs t instrs x first) :
    .var x ∈ instrs ↔ ∃ ty, first.shape = .num ty := by
  rw [h.mem_iff rfl, ← h.ident_eq]
  obtain ⟨ident, ty | text⟩ := first <;> simp [declaration]

end StoredAs

/-- Related to what `f` gives, hence related to the items for which it gives something. -/
private theorem forall₂_filter_of_filterMap {α β γ : Type} {R : α → γ → Prop} {f : β → Option γ}
    {l : List β} {as : List α} (h : List.Forall₂ R as (l.filterMap f)) :
    List.Forall₂ (fun a b => ∃ m, f b = some m ∧ R a m) as (l.filter fun b => (f b).isSome) := by
  induction l generalizing as with
  | nil => cases h; exact .nil
  | cons b rest ih =>
    rw [List.filterMap_cons] at h
    cases hb : f b with
    | none =>
      rw [hb] at h
      simpa [List.filter_cons, hb] using ih h
    | some m =>
      rw [hb] at h
      cases h with
      | cons hm hrest => simpa [List.filter_cons, hb] using List.Forall₂.cons ⟨m, hb, hm⟩ (ih hrest)

/-- An instruction serves the access that its name was resolved from. -/
theorem served_of_resolves {t : ScopeTable} {instrs : List Instr} {a : Access} {i : Instr}
    {m : Mention} (hi : i.transfer? = some m) (hr : Resolves t a m)
    (hd : ∀ symbol ∈ t.allSymbols, ∃ first, StoredAs t instrs symbol.ident first) :
    Served t instrs a i := by
  obtain ⟨role, scopes, x⟩ := a
  obtain ⟨hrole, ⟨ident, shape⟩, hs, href⟩ := hr
  obtain ⟨hmem, hident⟩ := ScopeTable.mem_allSymbols_of_innermost? hs
  obtain ⟨first, hfirst⟩ := hd _ hmem
  simp only at hrole hs hident hfirst
  subst hident hrole
  cases i with
  | read ty y =>
    cases hi
    cases shape with
    | num ty' =>
      obtain ⟨rfl, hty⟩ := VarRef.mk.inj href
      obtain rfl : ty = ty' := by cases ty <;> cases ty' <;> first | rfl | cases hty
      exact .read hs hfirst hfirst.var_mem_iff
    | str literal =>
      -- Only numbers are read, and the symbol is a string.
      have hty := (VarRef.mk.inj href).2
      cases ty <;> cases hty
  | write ty y =>
    cases hi
    obtain ⟨rfl, rfl⟩ := VarRef.mk.inj href
    cases shape with
    | num ty' => exact .writeNumber hs hfirst hfirst.var_mem_iff
    | str literal => exact .writeString hs hfirst (hfirst.str_mem_iff literal)
  | _ => cases hi

end Target

namespace Compilation

open Target

variable {program : ParseTree.Program} (c : Compilation program)

/-- The target code between the declarations and the halt. -/
def body : List Instr :=
  c.code.instrs.flatMap (image (registersOf c.code).rename)

theorem numeric : ∀ i ∈ c.code.instrs, i.Numeric :=
  fun i hi => ((ThreeAddress.Code.ofStatements_selectable c.code_eq).each i hi).numeric

theorem instrs_eq : c.target.instrs = header c.table ++ c.body ++ [.halt] := by
  have h := c.target_eq
  rw [ParseTree.Program.target, Program.ofCode_eq c.table c.numeric] at h
  rw [← Except.ok.inj h]
  rfl

theorem declared?_body {i : Instr} (h : i ∈ c.body) : i.declared? = none ∧ i ≠ .halt := by
  obtain ⟨j, -, hi⟩ := List.mem_flatMap.mp h
  refine ⟨(image_names _ hi).2, fun hhalt => ?_⟩
  exact halt_not_mem_image _ j (hhalt ▸ hi)

/-- The names in the target code have symbols in the table. -/
theorem exists_symbol {i : Instr} (h : i ∈ c.body) {x : String} (hx : x ∈ i.names) :
    ∃ symbol ∈ c.table.allSymbols, symbol.ident = x := by
  obtain ⟨j, hj, hi⟩ := List.mem_flatMap.mp h
  have hnames := (ThreeAddress.Code.ofStatements_mentioning c.code_eq).names j hj
  obtain ⟨m, hm, rfl⟩ := List.mem_map.mp (hnames ((image_names _ hi).1 hx))
  have hresolved := ParseTree.Program.statements_resolved c.statements_eq
  obtain ⟨k, hk, rfl⟩ := List.mem_iff_getElem.mp hm
  obtain ⟨-, symbol, hs, href⟩ := hresolved.get (hresolved.length_eq ▸ hk) hk
  refine ⟨symbol, (ScopeTable.mem_allSymbols_of_innermost? hs).1, ?_⟩
  exact (congrArg VarRef.ident href).symm

theorem transfers_eq :
    c.target.instrs.filterMap Instr.transfer? =
      (treeMentions c.statements).filter Mention.isTransfer := by
  have hheader : (header c.table).filterMap Instr.transfer? = [] := by
    rw [List.filterMap_eq_nil_iff]
    intro i hi
    obtain ⟨s, -, rfl⟩ := List.mem_map.mp hi
    exact transfer?_declaration s
  rw [instrs_eq, List.filterMap_append, List.filterMap_append, hheader, body,
    flatMap_image_transfers _ c.numeric,
    (ThreeAddress.Code.ofStatements_mentioning c.code_eq).transfers]
  exact List.append_nil _

theorem storedAs {symbol : Symbol} (h : symbol ∈ c.table.allSymbols) :
    ∃ first, StoredAs c.table c.target.instrs symbol.ident first := by
  obtain ⟨first, hfirst⟩ : ∃ first, c.table.allSymbols.find? (·.ident = symbol.ident) = some first :=
    Option.isSome_iff_exists.mp (List.find?_isSome.mpr ⟨symbol, h, by simp⟩)
  refine ⟨first, hfirst, ?_⟩
  have hheader : (header c.table).filter (·.declared? = some symbol.ident) = [declaration first] := by
    have hstorage := c.table.filter_storage symbol.ident
    rw [hfirst] at hstorage
    rw [header, List.filter_map]
    simp only [Function.comp_def, declared?_declaration, Option.some.injEq, hstorage]
    rfl
  have hbody : c.body.filter (·.declared? = some symbol.ident) = [] := by
    rw [List.filter_eq_nil_iff]
    intro i hi
    rw [(c.declared?_body hi).1]
    simp
  rw [instrs_eq, List.filter_append, List.filter_append, hheader, hbody]
  rfl

/-- **Target programs are closed.** A compiled program is a list of declarations, code, and a halt. The
declarations are for the names in the scope table, one for each, in the order in which they are met
first. The code has neither a declaration nor a halt, and works on declared names only. -/
theorem closed :
    let names := (c.table.allSymbols.map Symbol.ident).eraseDups
    names.Nodup ∧
    (∀ x, x ∈ names ↔ ∃ scope ∈ c.table.scopes, ∃ symbol ∈ scope.2, symbol.ident = x) ∧
    ∃ decls body, c.target.instrs = decls ++ body ++ [.halt] ∧
      decls.map Instr.declared? = names.map some ∧
      ∀ i ∈ body, i.declared? = none ∧ i ≠ .halt ∧ ∀ x ∈ i.names, x ∈ names := by
  intro names
  have hstorage : c.table.storage.map Symbol.ident = names := c.table.map_ident_storage
  have hmem : ∀ x, x ∈ names ↔ ∃ symbol ∈ c.table.allSymbols, symbol.ident = x := by
    intro x
    rw [List.mem_eraseDups, List.mem_map]
  refine ⟨hstorage ▸ c.table.nodup_storage, fun x => ?_, header c.table, c.body, c.instrs_eq, ?_, ?_⟩
  · rw [hmem]
    constructor
    · rintro ⟨symbol, hsymbol, hident⟩
      obtain ⟨scope, hscope, hin⟩ := List.mem_flatMap.mp hsymbol
      exact ⟨scope, hscope, symbol, hin, hident⟩
    · rintro ⟨scope, hscope, symbol, hin, hident⟩
      exact ⟨symbol, List.mem_flatMap.mpr ⟨scope, hscope, hin⟩, hident⟩
  · rw [header, List.map_map, ← hstorage, List.map_map]
    exact List.map_congr_left fun s _ => declared?_declaration s
  · intro i hi
    obtain ⟨hdeclared, hhalt⟩ := c.declared?_body hi
    exact ⟨hdeclared, hhalt, fun x hx => (hmem x).mpr (c.exists_symbol hi hx)⟩

/-- A procedure that is there twice, the second time with fewer names, a name with two types in one
scope, and a string that is hidden by a number. -/
theorem closed_repeated_names :
    let program : ParseTree.Program :=
      ⟨"p", [.string "s" "hi", .var .int ["a"], .var .float ["a"]],
        [⟨"f", [⟨.int, "b"⟩], [.var .int ["c"]], []⟩,
          ⟨"f", [], [.var .float ["s"]], [.assign "s" ⟨⟨.atom "a", []⟩, []⟩, .read ["s"]]⟩]⟩
    ∃ c : Compilation program,
      (c.table.allSymbols.map Symbol.ident).eraseDups = ["s", "a"] ∧
      ∃ decls body, c.target.instrs = decls ++ body ++ [.halt] ∧
        decls.map Instr.declared? = [some "s", some "a"] ∧
        ∀ i ∈ body, ∀ x ∈ i.names, x ∈ ["s", "a"] := by
  intro program
  let statements : List Statement := [.stringDecl "s" "hi",
    .assign ⟨"s", .float⟩ (.var ⟨"a", .float⟩), .read [⟨"s", .float⟩]]
  let c : Compilation program := ⟨_, statements, _, _, rfl, rfl, by cbv, rfl⟩
  have hnames : (c.table.allSymbols.map Symbol.ident).eraseDups = ["s", "a"] := by decide
  obtain ⟨-, -, decls, body, hinstrs, hdecls, hbody⟩ := c.closed
  rw [hnames] at hdecls hbody
  exact ⟨c, hnames, decls, body, hinstrs, hdecls, fun i hi => (hbody i hi).2.2⟩

/-- **What the storage of a transferred name is.** The instructions that read and write are those of
the program, name by name, at the type that the name is resolved to. Each finds one line for its name,
that of the first symbol with this name in the scope table. So it finds the line that it needs if every
symbol of the name needs the same line. -/
theorem transfers_served :
    List.Forall₂ (Served c.table c.target.instrs) program.transfers
      (c.target.instrs.filter (·.transfer?.isSome)) ∧
    ∀ x scopes symbol, c.table.innermost? x scopes = some symbol →
      (∀ other ∈ c.table.allSymbols, other.ident = x → declaration other = declaration symbol) →
      declaration symbol ∈ c.target.instrs := by
  refine ⟨?_, fun x scopes symbol hs hsame => ?_⟩
  · have hresolved : List.Forall₂ (Resolves c.table) program.transfers
        (c.target.instrs.filterMap Instr.transfer?) := by
      rw [c.transfers_eq]
      refine List.rel_filter ?_ (ParseTree.Program.statements_resolved c.statements_eq)
      rintro a m ⟨hrole, -⟩
      simp [Mention.isTransfer, hrole]
    refine (forall₂_filter_of_filterMap hresolved).imp ?_
    rintro a i ⟨m, hi, hr⟩
    exact served_of_resolves hi hr fun symbol => c.storedAs
  · obtain ⟨hmem, rfl⟩ := ScopeTable.mem_allSymbols_of_innermost? hs
    obtain ⟨first, hfirst⟩ := c.storedAs hmem
    rw [hfirst.mem_iff (declared?_declaration symbol)]
    exact (hsame first (List.mem_of_find?_eq_some hfirst.found) hfirst.ident_eq).symm

/-- A procedure hides a string by a string, a number by a string and a string by a number, and uses a
global number. -/
theorem transfers_served_hidden_names :
    let program : ParseTree.Program :=
      ⟨"p", [.string "s" "a", .var .int ["x"], .string "y" "t", .var .float ["z"]],
        [⟨"main", [], [.string "s" "b", .string "x" "u", .var .int ["y"]],
          [.write ["s", "x", "z"], .read ["y"]]⟩]⟩
    ∃ c : Compilation program,
      List.Forall₂ (Served c.table c.target.instrs)
        (accessesIn .write [.procedure "main", .global] ["s", "x", "z"] ++
          accessesIn .read [.procedure "main", .global] ["y"])
        [.write .string "s", .write .string "x", .write .float "z", .read .int "y"] ∧
      c.table.innermost? "z" [.procedure "main", .global] = some ⟨"z", .num .float⟩ ∧
      (∀ other ∈ c.table.allSymbols, other.ident = "z" → declaration other = .var "z") ∧
      .var "z" ∈ c.target.instrs := by
  intro program
  let statements : List Statement := [.stringDecl "s" "a", .stringDecl "y" "t", .stringDecl "s" "b",
    .stringDecl "x" "u", .write [⟨"s", .string⟩, ⟨"x", .string⟩, ⟨"z", .float⟩], .read [⟨"y", .int⟩]]
  let c : Compilation program := ⟨_, statements, _, _, rfl, rfl, by cbv, rfl⟩
  have hz : c.table.innermost? "z" [.procedure "main", .global] = some ⟨"z", .num .float⟩ := by decide
  have hsame : ∀ other ∈ c.table.allSymbols, other.ident = "z" → declaration other = .var "z" := by
    decide
  obtain ⟨hserved, hline⟩ := c.transfers_served
  exact ⟨c, hserved, hz, hsame, hline "z" _ _ hz hsame⟩

/-- A string that hides a string: the one that is written is the inner one, and the line is that of the
outer one. -/
theorem shadowed_string_storage :
    let program : ParseTree.Program :=
      ⟨"p", [.string "s" "\"a\""], [⟨"main", [], [.string "s" "\"b\""], [.write ["s"]]⟩]⟩
    program.transfers = [⟨.write, [.procedure "main", .global], "s"⟩] ∧
    ∃ c : Compilation program, .write .string "s" ∈ c.target.instrs ∧
      c.table.innermost? "s" [.procedure "main", .global] = some ⟨"s", .str "\"b\""⟩ ∧
      .str "s" "\"b\"" ∉ c.target.instrs := by
  intro program
  let statements : List Statement :=
    [.stringDecl "s" "\"a\"", .stringDecl "s" "\"b\"", .write [⟨"s", .string⟩]]
  let c : Compilation program := ⟨_, statements, _, _, rfl, rfl, by cbv, rfl⟩
  exact ⟨by decide, c, by decide, by decide, by decide⟩

end Compilation

end TinyGen
