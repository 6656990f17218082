import TinyGen.ScopeTable.Builder
import TinyGen.Sink
import TinyGen.Statement.Builder
import TinyGen.Target.Selection
import TinyGen.ThreeAddress.Lowering

/-!
# Compilation

A program goes through its scope table, its statement trees and its three-address code to its target
program. `Program.outcome` gives one of them, or all but the trees; it gives nothing unless every
stage up to that one succeeds. `Program.listing` has the lines of it, and `Program.compileTo` writes
these to a sink.
-/

namespace TinyGen

/-- Result of the compilation that is asked for. -/
inductive Stage where
  /-- Report of the scope table. -/
  | symbols
  /-- Statement trees. -/
  | tree
  /-- Three-address code. -/
  | ir
  /-- Target program. -/
  | tiny
  /-- Scope table, three-address code and target program. -/
  | all
  deriving DecidableEq, Repr

namespace Stage

/-- Name on the command line. -/
def name : Stage → String
  | .symbols => "symbols"
  | .tree => "tree"
  | .ir => "ir"
  | .tiny => "tiny"
  | .all => "all"

/-- The stage with a name. -/
def ofName? (name : String) : Option Stage :=
  [symbols, tree, ir, tiny, all].find? (·.name = name)

end Stage

/-- Result of a stage. -/
inductive Outcome where
  | symbols (table : ScopeTable)
  | tree (statements : List Statement)
  | ir (code : ThreeAddress.Code)
  | tiny (target : Target.Program)
  | all (table : ScopeTable) (code : ThreeAddress.Code) (target : Target.Program)
  deriving DecidableEq, Repr

namespace Outcome

/-- Line between the three-address code and the target program. -/
def targetMarker : String := ";tiny code"

/-- Lines of a result. -/
def lines : Outcome → List String
  | .symbols table => table.reportLines
  | .tree statements => statements.map Statement.text
  | .ir code => code.lines
  | .tiny target => target.lines
  | .all table code target => table.reportLines ++ code.lines ++ targetMarker :: target.lines

end Outcome

namespace ParseTree.Program

/-- The target program of three-address code. -/
def target (table : ScopeTable) (code : ThreeAddress.Code) : Except Fault Target.Program :=
  Fault.ofMisuse (Target.Program.ofCode table code)

/-- What a stage gives for a program. -/
def outcome (program : Program) (stage : Stage) : Except Fault Outcome := do
  let table ← program.scopeTable
  if stage = .symbols then return .symbols table
  let statements ← program.statements table
  if stage = .tree then return .tree statements
  let code ← ThreeAddress.Code.ofStatements statements
  if stage = .ir then return .ir code
  let target ← target table code
  if stage = .tiny then return .tiny target
  return .all table code target

/-- Lines of a stage. -/
def listing (program : Program) (stage : Stage) : Except Fault (List String) :=
  (program.outcome stage).map Outcome.lines

/-- Writes the lines of a stage to a sink. A failure of the sink is reported for `path`. -/
def compileTo (program : Program) (stage : Stage) (sink : Sink) (path : String) :
    Except Fault Unit × Sink :=
  match program.listing stage with
  | .error fault => (.error fault, sink)
  | .ok lines =>
    match sink.writeLines lines with
    | (.error fault, sink) => (.error (.error (.access path fault)), sink)
    | (.ok (), sink) =>
      match sink.flush with
      | (.error fault, sink) => (.error (.error (.access path fault)), sink)
      | (.ok (), sink) => (.ok (), sink)

end ParseTree.Program

end TinyGen
