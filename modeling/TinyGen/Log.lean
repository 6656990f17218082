import TinyGen.Compile

/-!
# Log

What the stages tell about their work. The records of a stage follow from the states before and
after each event, so the stages themselves do not deal with them.

Main definition: `Program.compileLog`.
-/

namespace TinyGen

open ParseTree

/-- Importance of a record. -/
inductive LogLevel where
  | trace
  | debug
  | warn
  deriving DecidableEq, Repr

/-- Name of a level. -/
def LogLevel.name : LogLevel → String
  | .trace => "TRACE"
  | .debug => "DEBUG"
  | .warn => "WARN"

/-- One record. -/
inductive LogRecord where
  | opened (scope : ScopeId)
  | openedAgain (scope : ScopeId)
  | declared (symbol : Symbol) (scope : ScopeId)
  | builtTable (scopes : Nat)
  | builtStatement (statement : Statement)
  | builtStatements (statements : Nat)
  | lowering (statement : Statement)
  | generatedCode (instrs temps : Nat)
  | generatedTarget (instrs registers : Nat)
  | readInput (bytes : Nat)
  | compiling (ident : String)
  deriving DecidableEq, Repr

namespace LogRecord

/-- Importance of a record: single steps are traced, and lost symbols are a warning. -/
def level : LogRecord → LogLevel
  | .opened _ => .trace
  | .openedAgain _ => .warn
  | .declared _ _ => .trace
  | .builtStatement _ => .trace
  | .lowering _ => .trace
  | _ => .debug

/-- Wording of a record. -/
def message : LogRecord → String
  | .opened scope => "open scope " ++ scope.name
  | .openedAgain scope =>
    "scope '" ++ scope.name ++ "' opened twice, discarding its earlier symbols"
  | .declared symbol scope =>
    "declare '" ++ symbol.ident ++ "' " ++ symbol.ty.name ++ " in " ++ scope.name
  | .builtTable scopes => "built " ++ toString scopes ++ " scope(s)"
  | .builtStatement statement => "statement " ++ statement.text
  | .builtStatements statements => "built " ++ toString statements ++ " statement tree(s)"
  | .lowering statement => "lowering " ++ statement.text
  | .generatedCode instrs temps =>
    "generated " ++ toString instrs ++ " IR instruction(s), " ++ toString temps ++
      " temporary(ies)"
  | .generatedTarget instrs registers =>
    "generated " ++ toString instrs ++ " target instruction(s), " ++ toString registers ++
      " register(s)"
  | .readInput bytes => "read " ++ toString bytes ++ " byte(s) of parse tree"
  | .compiling ident => "compiling program '" ++ ident ++ "'"

end LogRecord

/-- A stage that keeps the records of its events beside its state. -/
def logged {ε σ : Type} (visit : σ → Event → Step ε σ)
    (notes : (before : σ) → Event → (after : σ) → List LogRecord)
    (state : σ × List LogRecord) (event : Event) : Step ε (σ × List LogRecord) :=
  let step := visit state.1 event
  ⟨(step.state, state.2 ++ notes state.1 event step.state), step.fault⟩

/-- Records of an event on the scope table: the scope it opens, or the symbols that the innermost
scope gains. -/
def ScopeTable.Builder.notes (before : Builder) (event : Event) (after : Builder) :
    List LogRecord :=
  match event.scopeCall? with
  | some c =>
    match before.scopes.apply c, c.opens, after.scopes.current with
    | .ok _, true, some id =>
      if before.table.contains id then [.opened id, .openedAgain id] else [.opened id]
    | _, _, _ => []
  | none =>
    match before.scopes.current with
    | none => []
    | some id =>
      ((after.declaredIn id).drop (before.declaredIn id).length).map (.declared · id)

/-- Records of an event on the statement trees: the statements it adds. -/
def Statement.Builder.notes (before : Builder) (_ : Event) (after : Builder) : List LogRecord :=
  (after.statements.drop before.statements.length).map .builtStatement

/-- Records of lowering statements, up to the one that fails. -/
def ThreeAddress.loweringLog : List Statement → (temps : Nat) → List LogRecord
  | [], _ => []
  | statement :: rest, temps =>
    .lowering statement ::
      match lowerStatement statement temps with
      | .error _ => []
      | .ok (_, temps) => loweringLog rest temps

namespace ParseTree.Program

/-- Records of building the scope table. -/
def tableLog (program : Program) : List LogRecord :=
  (program.walk (logged ScopeTable.Builder.raise ScopeTable.Builder.notes) (.empty, [])).state.2

/-- Records of building the statement trees. -/
def statementLog (program : Program) (table : ScopeTable) : List LogRecord :=
  (program.walk (logged Statement.Builder.raise Statement.Builder.notes) (.new table, [])).state.2

/-- Records of the target program. -/
def targetLog (table : ScopeTable) (code : ThreeAddress.Code) : List LogRecord :=
  match target table code with
  | .error _ => []
  | .ok target => [.generatedTarget target.instrs.length target.registers]

/-- Records of the three-address code and what follows it. -/
def codeLog (table : ScopeTable) (statements : List Statement) (stage : Stage) :
    List LogRecord :=
  ThreeAddress.loweringLog statements 0 ++
    match ThreeAddress.Code.ofStatements statements with
    | .error _ => []
    | .ok code =>
      .generatedCode code.instrs.length code.temps ::
        if stage = .ir then [] else targetLog table code

/-- Records of compiling a program up to a stage. -/
def compileLog (program : Program) (stage : Stage) : List LogRecord :=
  program.tableLog ++
    match program.scopeTable with
    | .error _ => []
    | .ok table =>
      .builtTable table.size ::
        if stage = .symbols then []
        else
          program.statementLog table ++
            match program.statements table with
            | .error _ => []
            | .ok statements =>
              .builtStatements statements.length ::
                if stage = .tree then [] else codeLog table statements stage

end ParseTree.Program

end TinyGen
