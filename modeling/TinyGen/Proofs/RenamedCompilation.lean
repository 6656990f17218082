import TinyGen.Compile
import TinyGen.Proofs.Renaming

/-!
# Compilation of renamed programs

Compilation looks at names only to compare them, and at the text of an atom only to see whether it is a
number. So it commutes with a `Renaming`: `Program.compile_rename` says that every stage gives, for a
renamed program, the renamed result or the renamed fault.
-/

namespace TinyGen

open ParseTree

variable (ρ : Renaming)

/-! ## Statement trees -/

namespace OpenAssign

/-- The assignment of a renamed program. -/
def rename (a : OpenAssign) : OpenAssign :=
  ⟨a.target.mapName ρ.name, a.operands.map (Term.mapNames ρ.name), a.pending⟩

/-- Reduction looks at operators, never at names. -/
theorem reduce_rename (select : BinOp → Bool) (operands : List Term) (pending : List Pending) :
    reduce select (operands.map (Term.mapNames ρ.name)) pending =
      (reduce select operands pending).map fun reduced =>
        (reduced.1.map (Term.mapNames ρ.name), reduced.2) := by
  induction pending generalizing operands with
  | nil => rfl
  | cons top pending ih =>
    cases top with
    | group => rfl
    | operator op =>
      simp only [reduce]
      by_cases h : select op
      · rw [if_pos h, if_pos h]
        match operands with
        | [] => rfl
        | [_] => rfl
        | rhs :: lhs :: rest => exact ih (.binary op lhs rhs :: rest)
      · rw [if_neg h, if_neg h]
        rfl

theorem pushOperator_rename (a : OpenAssign) (op : BinOp) :
    (a.rename ρ).pushOperator op = (a.pushOperator op).map (rename ρ) := by
  rw [pushOperator, pushOperator, rename, reduce_rename]
  cases reduce (op.precedence ≤ ·.precedence) a.operands a.pending <;> rfl

theorem closeGroup_rename (a : OpenAssign) : (a.rename ρ).closeGroup = a.closeGroup.map (rename ρ) := by
  rw [closeGroup, closeGroup, rename, reduce_rename]
  cases reduce (fun _ => true) a.operands a.pending <;> rfl

theorem finish_rename (a : OpenAssign) :
    (a.rename ρ).finish = a.finish.map (Statement.mapNames ρ.name) := by
  rw [finish, finish, rename, reduce_rename]
  cases reduce (fun _ => true) a.operands a.pending with
  | error m => rfl
  | ok reduced =>
    obtain ⟨_ | ⟨value, operands⟩, pending⟩ := reduced <;> rfl

end OpenAssign

namespace Statement.Builder

/-- The builder of a renamed program. -/
def rename (b : Builder) : Builder :=
  ⟨b.table.rename ρ, b.scopes.rename ρ, b.statements.map (Statement.mapNames ρ.name),
    b.assign.map (OpenAssign.rename ρ)⟩

/-- A renamed name refers to what the name refers to. -/
theorem resolve_rename (b : Builder) (ident : String) :
    (b.rename ρ).resolve (ρ.name ident) =
      mapBoth (Error.mapNames ρ.name ρ.procedure) (VarRef.mapName ρ.name) (b.resolve ident) := by
  have hlookup : (b.rename ρ).table.lookup? (b.rename ρ).scopes.visible (ρ.name ident) =
      (b.table.lookup? b.scopes.visible ident).map (Symbol.rename ρ) := by
    show (b.table.rename ρ).lookup? (b.scopes.rename ρ).visible (ρ.name ident) = _
    rw [ScopeStack.visible_rename, ScopeTable.lookup?_rename]
  rw [resolve, resolve, hlookup]
  cases b.table.lookup? b.scopes.visible ident <;> rfl

/-- New names are resolved, up to the first that is unknown, as the old ones are. -/
theorem resolveAll_rename (b : Builder) (idents : List String) :
    (b.rename ρ).resolveAll (idents.map ρ.name) =
      mapBoth (Error.mapNames ρ.name ρ.procedure) (List.map (VarRef.mapName ρ.name))
        (b.resolveAll idents) := by
  induction idents with
  | nil => rfl
  | cons ident rest ih =>
    refine mapBoth_bind (resolve_rename ρ b ident) fun v => ?_
    exact mapBoth_bind ih fun vs => rfl

/-- A renamed atom is the renamed operand. -/
theorem operand_rename (b : Builder) (text : String) :
    (b.rename ρ).operand (ρ.atom text) =
      mapBoth (Error.mapNames ρ.name ρ.procedure) (Term.mapNames ρ.name) (b.operand text) := by
  rw [operand, operand, ρ.isNumeral_atom, Renaming.atom]
  by_cases h : Text.isNumeral text
  · rw [if_pos h, if_pos h, if_pos h]
    rfl
  · rw [if_neg h, if_neg h, if_neg h]
    exact mapBoth_map (resolve_rename ρ b text) fun _ => rfl

theorem push_rename (b : Builder) (statement : Statement) :
    (b.rename ρ).push (statement.mapNames ρ.name) = (b.push statement).rename ρ := by
  simp only [push, rename, List.map_append]
  rfl

/-- A statement about new names is pushed as the one about the old names is. -/
theorem pushResolved_rename {statement : List VarRef → Statement}
    (h : ∀ vars, statement (vars.map (VarRef.mapName ρ.name)) = (statement vars).mapNames ρ.name)
    (b : Builder) (idents : List String) :
    (b.rename ρ).pushResolved statement (idents.map ρ.name) =
      (b.pushResolved statement idents).bimap (Fault.rename ρ) (rename ρ) := by
  rw [pushResolved, pushResolved, resolveAll_rename]
  cases b.resolveAll idents with
  | error e => rfl
  | ok vars =>
    show Step.ok ((b.rename ρ).push _) = Step.ok ((b.push _).rename ρ)
    rw [h, push_rename]

/-- A change that does not look at names is made alike. -/
theorem modifyAssign_rename {change : OpenAssign → Except Misuse OpenAssign}
    (h : ∀ a, change (a.rename ρ) = (change a).map (OpenAssign.rename ρ)) (b : Builder) :
    (b.rename ρ).modifyAssign change =
      (b.modifyAssign change).bimap (Fault.rename ρ) (rename ρ) := by
  obtain ⟨t, s, out, _ | a⟩ := b
  · rfl
  · simp only [modifyAssign, rename, Option.map_some, h]
    cases change a <;> rfl

theorem enterAtom_rename (b : Builder) (text : String) :
    (b.rename ρ).enterAtom (ρ.atom text) =
      (b.enterAtom text).bimap (Fault.rename ρ) (rename ρ) := by
  rw [enterAtom, enterAtom, operand_rename]
  obtain ⟨t, s, out, _ | a⟩ := b
  · rfl
  · cases operand ⟨t, s, out, some a⟩ text <;> rfl

theorem enterAssign_rename (b : Builder) (target : String) :
    (b.rename ρ).enterAssign (ρ.name target) =
      (b.enterAssign target).bimap (Fault.rename ρ) (rename ρ) := by
  rw [enterAssign, enterAssign, resolve_rename]
  cases b.resolve target <;> rfl

theorem exitAssign_rename (b : Builder) :
    (b.rename ρ).exitAssign = b.exitAssign.bimap (Fault.rename ρ) (rename ρ) := by
  obtain ⟨t, s, out, _ | a⟩ := b
  · rfl
  · simp only [exitAssign, rename, Option.map_some, OpenAssign.finish_rename]
    cases a.finish with
    | error m => rfl
    | ok statement => exact congrArg Step.ok (push_rename ρ ⟨t, s, out, none⟩ statement)

theorem call_rename (b : Builder) (c : ScopeStack.Call) :
    (b.rename ρ).call (c.rename ρ) = (b.call c).bimap (Fault.rename ρ) (rename ρ) := by
  have happly : (b.rename ρ).scopes.apply (c.rename ρ) =
      (b.scopes.apply c).map (ScopeStack.rename ρ) := ScopeStack.apply_rename ρ b.scopes c
  rw [call, call, happly]
  cases b.scopes.apply c <;> rfl

/-- A renamed event does to a renamed builder what the event does to the builder. -/
theorem raise_rename (b : Builder) (event : Event) :
    (b.rename ρ).raise (event.rename ρ) = (b.raise event).bimap (Fault.rename ρ) (rename ρ) := by
  unfold raise
  rw [Event.scopeCall?_rename]
  cases event.scopeCall? with
  | some c => exact call_rename ρ b c
  | none =>
    -- what is left over ignores the event, or belongs to a scope call
    cases event with
    | stringDecl ident literal => exact congrArg Step.ok (push_rename ρ b (.stringDecl ident literal))
    | enterAssign target => exact enterAssign_rename ρ b target
    | exitAssign target => exact exitAssign_rename ρ b
    | read idents => exact pushResolved_rename ρ (fun _ => rfl) b idents
    | write idents => exact pushResolved_rename ρ (fun _ => rfl) b idents
    | addOp op => exact modifyAssign_rename ρ (OpenAssign.pushOperator_rename ρ · op.toBinOp) b
    | mulOp op => exact modifyAssign_rename ρ (OpenAssign.pushOperator_rename ρ · op.toBinOp) b
    | enterAtom text => exact enterAtom_rename ρ b text
    | enterGroup inner => exact modifyAssign_rename ρ (fun _ => rfl) b
    | exitGroup inner => exact modifyAssign_rename ρ (OpenAssign.closeGroup_rename ρ) b
    | _ => rfl

end Statement.Builder

/-- **The statement trees of a renamed program** are the renamed statement trees. -/
theorem ParseTree.Program.statements_rename (program : Program) (table : ScopeTable) :
    (program.rename ρ).statements (table.rename ρ) =
      mapBoth (Fault.rename ρ) (List.map (Statement.mapNames ρ.name)) (program.statements table) :=
  mapBoth_map (Program.walk_rename ρ (Statement.Builder.raise_rename ρ) program (.new table))
    fun _ => rfl

/-! ## Target programs -/

namespace Target

section MapNames

variable (name : String → String)

def Operand.mapNames : Operand → Operand
  | .register r => .register r
  | .var ident => .var (name ident)
  | .immediate text => .immediate text

/-- The instruction with its variables renamed. -/
def Instr.mapNames : Instr → Instr
  | .var ident => .var (name ident)
  | .str ident literal => .str (name ident) literal
  | .move src dst => .move (src.mapNames name) (dst.mapNames name)
  | .arith op ty src dst => .arith op ty (src.mapNames name) dst
  | .read ty ident => .read ty (name ident)
  | .write ty ident => .write ty (name ident)
  | .halt => .halt

def Program.mapNames (program : Program) : Program :=
  { program with instrs := program.instrs.map (Instr.mapNames name) }

theorem operand_mapNames (rs : Registers) (o : ThreeAddress.Operand) :
    rs.operand (o.relabel id name) = ((rs.operand o).1.mapNames name, (rs.operand o).2) := by
  cases o <;> rfl

/-- Selection looks at the kinds of operands, never at names. -/
theorem select_mapNames (rs : Registers) (i : ThreeAddress.Instr) :
    select rs (i.relabel id name) =
      mapBoth id (fun selected => (selected.1.map (Instr.mapNames name), selected.2)) (select rs i) := by
  cases i with
  | store ty src dst =>
    simp only [ThreeAddress.Instr.relabel, select, operand_mapNames]
    rfl
  | binary op ty lhs rhs dst =>
    simp only [ThreeAddress.Instr.relabel, select, operand_mapNames]
    cases ty.toNum? <;> rfl
  | read ty ident =>
    simp only [ThreeAddress.Instr.relabel, select]
    cases ty.toNum? <;> rfl
  | _ => rfl

/-- Registers are given to temporaries, whatever the variables are called. -/
theorem selectAll_mapNames (rs : Registers) (instrs : List ThreeAddress.Instr) :
    selectAll rs (instrs.map (ThreeAddress.Instr.relabel id name)) =
      mapBoth id (fun selected => (selected.1.map (Instr.mapNames name), selected.2))
        (selectAll rs instrs) := by
  induction instrs generalizing rs with
  | nil => rfl
  | cons i rest ih =>
    refine mapBoth_bind (select_mapNames name rs i) fun first => ?_
    refine mapBoth_bind (ih first.2) fun more => ?_
    exact congrArg (fun instrs => Except.ok (instrs, more.2)) List.map_append.symm

end MapNames

/-- The header declares the new names. -/
theorem header_rename (table : ScopeTable) :
    header (table.rename ρ) = (header table).map (Instr.mapNames ρ.name) := by
  rw [header, header, ScopeTable.storage_rename, List.map_map, List.map_map]
  refine List.map_congr_left fun s _ => ?_
  obtain ⟨ident, _ | _⟩ := s <;> rfl

theorem Program.ofCode_rename (table : ScopeTable) (code : ThreeAddress.Code) :
    Program.ofCode (table.rename ρ) (code.mapNames ρ.name) =
      mapBoth id (Program.mapNames ρ.name) (Program.ofCode table code) := by
  refine mapBoth_bind (selectAll_mapNames ρ.name .empty code.instrs) fun selected => ?_
  show Except.ok (Program.mk (header (table.rename ρ) ++ selected.1.map (Instr.mapNames ρ.name) ++
    [.halt]) selected.2.count) = Except.ok ⟨(header table ++ selected.1 ++ [Instr.halt]).map _, _⟩
  rw [header_rename, List.map_append, List.map_append]
  rfl

end Target

theorem ParseTree.Program.target_rename (table : ScopeTable) (code : ThreeAddress.Code) :
    Program.target (table.rename ρ) (code.mapNames ρ.name) =
      mapBoth (Fault.rename ρ) (Target.Program.mapNames ρ.name) (Program.target table code) :=
  mapBoth_ofMisuse (Target.Program.ofCode_rename ρ table code) ρ.name ρ.procedure

/-! ## Stages -/

/-- The result for a renamed program. -/
def Outcome.rename : Outcome → Outcome
  | .symbols table => .symbols (table.rename ρ)
  | .tree statements => .tree (statements.map (Statement.mapNames ρ.name))
  | .ir code => .ir (code.mapNames ρ.name)
  | .tiny target => .tiny (target.mapNames ρ.name)
  | .all table code target =>
    .all (table.rename ρ) (code.mapNames ρ.name) (target.mapNames ρ.name)

namespace ParseTree.Program

/-- The outcome of each stage is renamed, or its error is. -/
theorem outcome_rename (program : Program) (stage : Stage) :
    (program.rename ρ).outcome stage =
      mapBoth (Fault.rename ρ) (Outcome.rename ρ) (program.outcome stage) := by
  refine mapBoth_bind (scopeTable_rename ρ program) fun table => ?_
  by_cases hsymbols : stage = .symbols
  · rw [if_pos hsymbols, if_pos hsymbols]
    rfl
  rw [if_neg hsymbols, if_neg hsymbols]
  refine mapBoth_bind (statements_rename ρ program table) fun statements => ?_
  by_cases htree : stage = .tree
  · rw [if_pos htree, if_pos htree]
    rfl
  rw [if_neg htree, if_neg htree]
  have hcode := ThreeAddress.Code.ofStatements_mapNames ρ.name ρ.procedure statements
  refine mapBoth_bind hcode fun code => ?_
  by_cases hir : stage = .ir
  · rw [if_pos hir, if_pos hir]
    rfl
  rw [if_neg hir, if_neg hir]
  refine mapBoth_bind (target_rename ρ table code) fun target => ?_
  by_cases htiny : stage = .tiny
  · rw [if_pos htiny, if_pos htiny]
    rfl
  · rw [if_neg htiny, if_neg htiny]
    rfl

/-- **Compilation commutes with renaming.** For a renamed program each stage gives the renamed result,
or the renamed fault; and so it does for results of earlier stages that are renamed. -/
theorem compile_rename (program : Program) :
    (program.rename ρ).scopeTable =
      mapBoth (Fault.rename ρ) (ScopeTable.rename ρ) program.scopeTable ∧
    (∀ table, (program.rename ρ).statements (table.rename ρ) =
      mapBoth (Fault.rename ρ) (List.map (Statement.mapNames ρ.name)) (program.statements table)) ∧
    (∀ statements, ThreeAddress.Code.ofStatements (statements.map (Statement.mapNames ρ.name)) =
      mapBoth (Fault.rename ρ) (ThreeAddress.Code.mapNames ρ.name)
        (ThreeAddress.Code.ofStatements statements)) ∧
    (∀ table code, target (table.rename ρ) (code.mapNames ρ.name) =
      mapBoth (Fault.rename ρ) (Target.Program.mapNames ρ.name) (target table code)) ∧
    ∀ stage,
      (program.rename ρ).outcome stage =
        mapBoth (Fault.rename ρ) (Outcome.rename ρ) (program.outcome stage) ∧
      (program.rename ρ).listing stage =
        mapBoth (Fault.rename ρ) (fun outcome => (outcome.rename ρ).lines) (program.outcome stage) := by
  refine ⟨scopeTable_rename ρ program, statements_rename ρ program,
    ThreeAddress.Code.ofStatements_mapNames ρ.name ρ.procedure, target_rename ρ, fun stage => ?_⟩
  have houtcome := outcome_rename ρ program stage
  refine ⟨houtcome, ?_⟩
  rw [listing, houtcome]
  cases program.outcome stage <;> rfl

end ParseTree.Program

/-! ## An exchange of names -/

/-- Puts `x` and `y` in each other's place. -/
def exchange (x y text : String) : String :=
  if text = x then y else if text = y then x else text

/-- An exchange keeps names apart. -/
theorem exchange_injective (x y : String) : Function.Injective (exchange x y) := by
  intro a b h
  grind [exchange]

/-- An exchange of two names brings in no numeral. -/
theorem isNumeral_exchange {x y : String} (hx : Text.isNumeral x = false)
    (hy : Text.isNumeral y = false) (text : String) (h : Text.isNumeral text = false) :
    Text.isNumeral (exchange x y text) = false := by
  rw [exchange]
  split
  · exact hy
  · split
    · exact hx
    · exact h

/-- `a` and `b` are exchanged, and so are the procedures `main` and `start`. The first program declares
a variable twice. -/
theorem ParseTree.Program.compile_rename_exchange :
    let ρ : Renaming := ⟨exchange "a" "b", exchange "main" "start", exchange_injective "a" "b",
      exchange_injective "main" "start", isNumeral_exchange rfl rfl⟩
    let atom (text : String) : Factor := ⟨.atom text, []⟩
    let twice : Program := ⟨"p", [], [⟨"main", [], [.var .int ["a", "a"]], []⟩]⟩
    let once : Program := ⟨"p", [], [⟨"main", [], [.var .int ["a"]],
      [.assign "a" ⟨atom "a", [(.add, atom "1")]⟩]⟩]⟩
    (twice.rename ρ).outcome .tiny = .error (.error (.duplicateDeclaration (.procedure "start") "b")) ∧
    (once.rename ρ).outcome .tiny = .ok (.tiny ⟨[.var "b", .move (.immediate "1") (.register ⟨1⟩),
      .move (.var "b") (.register ⟨2⟩), .arith .add .int (.register ⟨1⟩) ⟨2⟩,
      .move (.register ⟨2⟩) (.var "b"), .halt], 2⟩) := by
  intro ρ atom twice once
  have htwice : twice.outcome .tiny =
      .error (.error (.duplicateDeclaration (.procedure "main") "a")) := rfl
  have hcode : ThreeAddress.Code.ofStatements
      [.assign ⟨"a", .int⟩ (.binary .add (.var ⟨"a", .int⟩) (.literal "1"))] =
        .ok ⟨[.label "main", .link, .store .int (.literal "1") (.temp ⟨1⟩),
          .binary .add .int (.var "a") (.temp ⟨1⟩) ⟨2⟩, .store .int (.temp ⟨2⟩) (.var "a"), .ret], 2⟩ := by
    cbv
  have honce : once.outcome .tiny = .ok (.tiny ⟨[.var "a", .move (.immediate "1") (.register ⟨1⟩),
      .move (.var "a") (.register ⟨2⟩), .arith .add .int (.register ⟨1⟩) ⟨2⟩,
      .move (.register ⟨2⟩) (.var "a"), .halt], 2⟩) := by
    show ThreeAddress.Code.ofStatements
      [.assign ⟨"a", .int⟩ (.binary .add (.var ⟨"a", .int⟩) (.literal "1"))] >>= _ = _
    rw [hcode]
    rfl
  refine ⟨((compile_rename ρ twice).2.2.2.2 .tiny).1.trans ?_,
    ((compile_rename ρ once).2.2.2.2 .tiny).1.trans ?_⟩
  · rw [htwice]
    rfl
  · rw [honce]
    rfl

end TinyGen
