import TinyGen.Ty

/-!
# Scope tables

The declared names of a program, scope by scope, in the order of their declaration. A scope is the
global one, the body of a procedure, or a block. Blocks are the bodies of `if`, `else` and `while`,
numbered in the order in which they are opened. A scope may declare a name several times with
different types; the latest declaration is the one that counts.
-/

namespace TinyGen

/-- Identity of a scope. -/
inductive ScopeId where
  | global
  | block (number : Nat)
  | procedure (ident : String)
  deriving DecidableEq, Repr

/-- Name in reports. A procedure may share its name with another scope. -/
def ScopeId.name : ScopeId → String
  | .global => "GLOBAL"
  | .block number => "BLOCK " ++ toString number
  | .procedure ident => ident

/-- What a name stands for: a numeric variable, or a string with its text. -/
inductive Shape where
  | num (ty : NumTy)
  | str (literal : String)
  deriving DecidableEq, Repr

/-- A declared name. -/
structure Symbol where
  ident : String
  shape : Shape
  deriving DecidableEq, Repr

namespace Symbol

/-- Type of the name. -/
def ty (s : Symbol) : Ty :=
  match s.shape with
  | .num ty => ty.toTy
  | .str _ => .string

/-- Text of a string. -/
def literal? (s : Symbol) : Option String :=
  match s.shape with
  | .num _ => none
  | .str literal => some literal

/-- Line of the symbol in a report. -/
def text (s : Symbol) : String :=
  let declared := "name " ++ s.ident ++ " type " ++ s.ty.name
  match s.literal? with
  | none => declared
  | some literal => declared ++ " value " ++ literal

/-- Whether two symbols cannot be declared in one scope: they have one name and one type. -/
def clashes (s t : Symbol) : Bool :=
  s.ident = t.ident && s.ty = t.ty

end Symbol

/-- Scopes in the order in which they were first opened, with their symbols in the order of
declaration. -/
structure ScopeTable where
  scopes : List (ScopeId × List Symbol)
  deriving DecidableEq, Repr

namespace ScopeTable

/-- The table without scopes. -/
def empty : ScopeTable := ⟨[]⟩

/-- Number of scopes. -/
def size (t : ScopeTable) : Nat :=
  t.scopes.length

/-- Symbols of a scope. -/
def symbols? (t : ScopeTable) (id : ScopeId) : Option (List Symbol) :=
  t.scopes.lookup id

/-- Whether the table has a scope. -/
def contains (t : ScopeTable) (id : ScopeId) : Bool :=
  (t.symbols? id).isSome

/-- Sets the symbols of `id` where the scope stands, or after all other scopes if it is new. -/
def insertIn (id : ScopeId) (symbols : List Symbol) :
    List (ScopeId × List Symbol) → List (ScopeId × List Symbol)
  | [] => [(id, symbols)]
  | (other, old) :: rest =>
    if other = id then (id, symbols) :: rest else (other, old) :: insertIn id symbols rest

/-- Sets the symbols of a scope. A scope that is already there keeps its place. -/
def insert (t : ScopeTable) (id : ScopeId) (symbols : List Symbol) : ScopeTable :=
  ⟨insertIn id symbols t.scopes⟩

/-- The latest declaration of a name among the symbols of a scope. -/
def latest? (symbols : List Symbol) (ident : String) : Option Symbol :=
  symbols.reverse.find? (·.ident = ident)

/-- What `ident` stands for when it is looked up in `scopes`: its latest declaration in the first of
them that declares it. -/
def lookup? (t : ScopeTable) (scopes : List ScopeId) (ident : String) : Option Symbol :=
  scopes.findSome? fun id => (t.symbols? id).bind (latest? · ident)

/-- All symbols, scope after scope. -/
def allSymbols (t : ScopeTable) : List Symbol :=
  t.scopes.flatMap Prod.snd

/-- The symbols whose names are neither in `seen` nor those of earlier symbols. -/
def firstOfName (seen : List String) : List Symbol → List Symbol
  | [] => []
  | s :: rest =>
    if s.ident ∈ seen then firstOfName seen rest
    else s :: firstOfName (s.ident :: seen) rest

/-- One symbol for each declared name, the one declared first. -/
def storage (t : ScopeTable) : List Symbol :=
  firstOfName [] t.allSymbols

/-! ## Report -/

/-- Lines of a symbol. A string is followed by an empty line. -/
def symbolLines (s : Symbol) : List String :=
  if s.literal?.isSome then [s.text, ""] else [s.text]

/-- Lines of a scope. -/
def scopeLines : ScopeId × List Symbol → List String
  | (id, []) => ["Symbol Table " ++ id.name, ""]
  | (id, symbols) => ("Symbol table " ++ id.name) :: (symbols.flatMap symbolLines ++ [""])

/-- Lines of the report. -/
def reportLines (t : ScopeTable) : List String :=
  t.scopes.flatMap scopeLines

end ScopeTable

end TinyGen
