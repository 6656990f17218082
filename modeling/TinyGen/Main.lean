import TinyGen.Session

/-!
# The program

Runs the command line with the files and streams of the actual process.
-/

namespace TinyGen

/-- Why an operation on a file failed. -/
def AccessFault.ofError : IO.Error → AccessFault
  | .noFileOrDirectory .. => .notFound
  | .inappropriateType _ code _ => if code = 20 then .notDirectory else .isDirectory
  | .invalidArgument _ 36 _ => .nameTooLong
  | e => .other (toString e)

/-- What an operation gives, or why it failed. -/
def attempt {α : Type} (operation : IO α) : IO (Except AccessFault α) := do
  try return .ok (← operation)
  catch e => return .error (.ofError e)

/-- The surroundings of the process. -/
def Surroundings.process : Surroundings IO where
  read
    | none => attempt do (← IO.getStdin).readBinToEnd
    | some path => attempt (IO.FS.readBinFile path)
  clear
    | none => return .ok ()
    | some path => attempt (IO.FS.writeBinFile path .empty)
  write
    | none, bytes => attempt do (← IO.getStdout).write bytes
    | some path, bytes => attempt (IO.FS.writeBinFile path bytes)

/-- Shows what is left to show and gives the exit code. -/
def Exit.show (exit : Exit) : IO UInt32 := do
  (← IO.getStdout).write exit.output
  IO.eprint exit.errors
  return exit.code.toUInt32

end TinyGen

open TinyGen

/-- Runs the program. -/
def main (words : List String) : IO UInt32 := do
  match Options.parse words with
  | .error reason => (Exit.ofStop reason .empty).show
  | .ok o =>
    let (log, result) ← o.run .process
    (Exit.ofReport ⟨.empty, .empty, log, result⟩).show
