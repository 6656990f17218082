import TinyGen.Compile

/-!
# Command line

The words after the program's name: an input file, `-s` or `--stage` with the name of a stage, and
`-o` or `--output` with an output file. Words are looked at from left to right, and the first that
asks for help or the version, or is wrong, decides.

* A value follows its option as the next word, or is attached: `-sir`, `-s=ir`, `--stage=ir`.
* A word that starts with a dash is never the value of an option, except the dash alone.
* After `--` every word is a file.
-/

namespace TinyGen

/-- What is to be compiled, and how. -/
structure Options where
  input : Option String
  stage : Option Stage
  output : Option String
  deriving DecidableEq, Repr

/-- Why a command line gives no options. -/
inductive Stop where
  | help
  | version
  | usage
  deriving DecidableEq, Repr

/-- An option that takes a value. -/
inductive ValueOption where
  | stage
  | output
  deriving DecidableEq, Repr

namespace Options

/-- Nothing is given. -/
def empty : Options := ⟨none, none, none⟩

/-- The stage asked for, which is all of them if none is given. -/
def wanted (o : Options) : Stage :=
  o.stage.getD .all

/-- The file to read, or nothing for standard input, which is also called `-`. -/
def inputFile? (o : Options) : Option String :=
  o.input.filter (· ≠ "-")

/-- Takes in a file. There is only one, and it has a name. -/
def addInput (o : Options) (word : String) : Except Stop Options :=
  if o.input.isSome ∨ word = "" then .error .usage else .ok { o with input := some word }

/-- Takes in the value of an option. No option is given twice. -/
def addValue (o : Options) (option : ValueOption) (value : String) : Except Stop Options :=
  match option with
  | .stage =>
    match o.stage, Stage.ofName? value with
    | none, some stage => .ok { o with stage := some stage }
    | _, _ => .error .usage
  | .output =>
    if o.output.isSome ∨ value = "" then .error .usage else .ok { o with output := some value }

/-- Takes in the words after `--`. -/
def addInputs (o : Options) : List String → Except Stop Options
  | [] => .ok o
  | word :: rest => do
    let o ← o.addInput word
    o.addInputs rest

end Options

/-- What a word of the command line is. -/
inductive Word where
  | separator
  | file
  | stop (reason : Stop)
  /-- An option, with the value attached to it. -/
  | option (option : ValueOption) (value : Option String)
  deriving DecidableEq, Repr

namespace Word

/-- Splits `name=value` at the first equals sign. -/
def splitValue (cs : List Char) : String × Option String :=
  match cs.dropWhile (· ≠ '=') with
  | [] => (String.ofList cs, none)
  | _ :: value => (String.ofList (cs.takeWhile (· ≠ '=')), some (String.ofList value))

/-- A word after two dashes. -/
def ofLong (cs : List Char) : Word :=
  match splitValue cs with
  | ("stage", value) => .option .stage value
  | ("output", value) => .option .output value
  | ("help", none) => .stop .help
  | ("version", none) => .stop .version
  | _ => .stop .usage

/-- Value attached to a single letter; an equals sign before it is left out. -/
def attached : List Char → Option String
  | [] => none
  | '=' :: value => some (String.ofList value)
  | value => some (String.ofList value)

/-- A word after one dash. Help and version do not look at what follows them. -/
def ofShort (c : Char) (rest : List Char) : Word :=
  if c = 's' then .option .stage (attached rest)
  else if c = 'o' then .option .output (attached rest)
  else if c = 'h' then .stop .help
  else if c = 'V' then .stop .version
  else .stop .usage

/-- What a word is. -/
def ofString (word : String) : Word :=
  match word.toList with
  | ['-', '-'] => .separator
  | '-' :: '-' :: cs => ofLong cs
  | '-' :: c :: cs => ofShort c cs
  | _ => .file

end Word

namespace Options

/-- Takes in words from left to right. -/
def addWords (o : Options) : List String → Except Stop Options
  | [] => .ok o
  | word :: rest =>
    match Word.ofString word with
    | .separator => o.addInputs rest
    | .file => do
      let o ← o.addInput word
      o.addWords rest
    | .stop reason => .error reason
    | .option option (some value) => do
      let o ← o.addValue option value
      o.addWords rest
    | .option option none =>
      match rest with
      | [] => .error .usage
      | value :: rest =>
        if Word.ofString value = .file then do
          let o ← o.addValue option value
          o.addWords rest
        else .error .usage

/-- The options of a command line. -/
def parse (words : List String) : Except Stop Options :=
  empty.addWords words

end Options

end TinyGen
