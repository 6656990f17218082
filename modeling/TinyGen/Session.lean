import TinyGen.CommandLine
import TinyGen.FileSystem
import TinyGen.Log
import TinyGen.ParseTree.Decode

/-!
# Runs

A whole run: the input is read and decoded, the output file is emptied, and then the program is
compiled into it. So a text that is no parse tree leaves the output file alone, and a program that
is refused leaves it empty.

A run is the same in all `Surroundings`, which say how input is read and output is written. In a
`Session` they are files that are given.

Main definitions: `Options.run`, for any surroundings, `Session.run`, and `Session.execute`, for a
command line.
-/

namespace TinyGen

open ParseTree

/-- What a run asks for. Standard input and standard output have no path. -/
structure Surroundings (m : Type → Type) where
  /-- Content of the input. -/
  read : Option String → m (Except AccessFault ByteArray)
  /-- Makes the output empty, before there is anything to write. -/
  clear : Option String → m (Except AccessFault Unit)
  /-- Writes the output. -/
  write : Option String → ByteArray → m (Except AccessFault Unit)

/-- Name of standard input in messages. -/
def Session.stdinName : String := "<stdin>"

/-- Name of standard output in messages. -/
def Session.stdoutName : String := "<stdout>"

namespace Options

/-- Name of the input in messages. -/
def inputName (o : Options) : String :=
  o.inputFile?.getD Session.stdinName

/-- Name of the output in messages. -/
def outputName (o : Options) : String :=
  o.output.getD Session.stdoutName

/-- The text to compile. -/
def text (o : Options) (input : Except AccessFault ByteArray) : Except Error String :=
  (input >>= textOf).mapError (.access o.inputName)

/-- Compiles a program to the output, and adds to the log. -/
def compile {m : Type → Type} [Monad m] (around : Surroundings m) (o : Options) (program : Program)
    (log : List LogRecord) : m (List LogRecord × Except Fault Unit) := do
  match ← around.clear o.output with
  | .error fault => return (log, .error (.error (.access o.outputName fault)))
  | .ok () =>
    let (result, sink) := program.compileTo o.wanted .unlimited o.outputName
    let written ← around.write o.output sink.received
    let log := log ++ program.compileLog o.wanted
    match result, written with
    | .ok (), .error fault => return (log, .error (.error (.access o.outputName fault)))
    | result, _ => return (log, result)

/-- Runs with options. Gives the records of the log and the result. -/
def run {m : Type → Type} [Monad m] (around : Surroundings m) (o : Options) :
    m (List LogRecord × Except Fault Unit) := do
  match o.text (← around.read o.inputFile?) with
  | .error e => return ([], .error (.error e))
  | .ok text =>
    let log := [.readInput text.utf8ByteSize]
    match Program.decode text with
    | .error defect => return (log, .error (.error (.parseTree defect)))
    | .ok program => o.compile around program (log ++ [.compiling program.ident])

end Options

/-- What a run finds: files and standard input. -/
structure Session where
  files : FileSystem
  input : ByteArray

/-- What a run leaves: files, standard output, the records of its log, and its result. -/
structure Report where
  files : FileSystem
  output : ByteArray
  log : List LogRecord
  result : Except Fault Unit

/-- What a finished process shows: its exit code, its two output streams and the files. -/
structure Exit where
  code : Nat
  output : ByteArray
  errors : String
  files : FileSystem

namespace Session

/-- Gives a file new content, among files and standard output. -/
def writeFile (path : String) (content : ByteArray) :
    StateM (FileSystem × ByteArray) (Except AccessFault Unit) := fun (files, output) =>
  match files.write path content with
  | .error fault => (.error fault, files, output)
  | .ok files => (.ok (), files, output)

/-- The surroundings of a run with files and standard output as its state. -/
def surroundings (input : ByteArray) : Surroundings (StateM (FileSystem × ByteArray)) where
  read
    | none => fun state => (.ok input, state)
    | some path => fun state => (state.1.read path, state)
  clear
    | none => fun state => (.ok (), state)
    | some path => writeFile path .empty
  write
    | none, bytes => fun (files, output) => (.ok (), files, output ++ bytes)
    | some path, bytes => writeFile path bytes

/-- Runs with options. -/
def run (s : Session) (o : Options) : Report :=
  let ((log, result), files, output) := o.run (surroundings s.input) (s.files, .empty)
  ⟨files, output, log, result⟩

end Session

/-! ## Processes -/

namespace Exit

/-- Name of the program. -/
def programName : String := "littlec"

/-- Line that tells the version. -/
def versionLine : String := programName ++ " 0.1.0"

/-- Lines that tell how the program is called. -/
def usageLines : List String :=
  ["Compiles a serialized parse tree into tiny target code",
   "",
   "Usage: " ++ programName ++ " [OPTIONS] [FILE]",
   "",
   "Arguments:",
   "  [FILE]  Input file containing the JSON parse tree (use \"-\" for stdin)",
   "",
   "Options:",
   "  -s, --stage <STAGE>  Compilation phase whose output is written [default: all]",
   "                       [possible values: symbols, tree, ir, tiny, all]",
   "  -o, --output <FILE>  Output file (defaults to stdout)",
   "  -h, --help           Print help",
   "  -V, --version        Print version"]

/-- Line that reports an error, with the program's name and the word `error` set off. -/
def errorLine (message : String) : String :=
  "\x1b[1;1m" ++ programName ++ "\x1b[0m: \x1b[1;31merror:\x1b[0m " ++ message

/-- What a process shows that stops at its command line. -/
def ofStop : Stop → FileSystem → Exit
  | .help, files => ⟨0, (Text.unlines usageLines).toByteArray, "", files⟩
  | .version, files => ⟨0, (Text.unlines [versionLine]).toByteArray, "", files⟩
  | .usage, files => ⟨2, .empty, Text.unlines usageLines, files⟩

/-- What a process shows after a run. A duplicate declaration is printed as the result. -/
def ofReport (report : Report) : Exit :=
  match report.result with
  | .ok () => ⟨0, report.output, "", report.files⟩
  | .error (.error e) =>
    if e.isDeclarationError then
      ⟨0, report.output ++ (Text.unlines [e.message]).toByteArray, "", report.files⟩
    else ⟨1, report.output, Text.unlines [errorLine e.message], report.files⟩
  | .error (.misuse m) => ⟨1, report.output, Text.unlines [errorLine m.message], report.files⟩

end Exit

/-- Runs a command line. -/
def Session.execute (s : Session) (words : List String) : Exit :=
  match Options.parse words with
  | .error reason => .ofStop reason s.files
  | .ok o => .ofReport (s.run o)

end TinyGen
