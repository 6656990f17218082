import TinyGen.Json.Reader
import TinyGen.ParseTree

/-!
# Decoding of parse trees

Reads a program from its JSON text. Every reader takes the number of brackets that may still be
opened; a program may have `Program.maxDepth` of them open at once. Values under unknown keys are
skipped and do not count.

Main definition: `Program.decode`.
-/

namespace TinyGen.ParseTree

open Json

universe u

/-- The content of a bracket, by the number of brackets that may be opened in it, if the bracket
itself may be opened. -/
def inside {α : Type u} (room : Nat) (content : Nat → α) : Option α :=
  match room with
  | 0 => none
  | room + 1 => some (content room)

/-- A field that has to be present. -/
def required {α : Type} {types : List Type} (name : String) (read : Reader α)
    (rest : Fields types) : Fields (α :: types) :=
  .cons ⟨name, read, none⟩ rest

/-- A field that may be left out. -/
def defaulted {α : Type} {types : List Type} (name : String) (read : Reader α) (absent : α)
    (rest : Fields types) : Fields (α :: types) :=
  .cons ⟨name, read, some absent⟩ rest

/-- Stands for the content of a variant that cannot be opened. -/
def closed {α : Type} : Reader α := fun _ => .error .malformed

/-! ## Names and operators -/

/-- Reads a list of names. -/
def readTexts (room : Nat) : Reader (List String) :=
  list (inside room fun _ => text)

/-- Reads the type of a variable. -/
def readNumTy (room : Nat) : Reader NumTy :=
  variant [⟨"INT", .none .int⟩, ⟨"FLOAT", .none .float⟩] (0 < room)

/-- Reads an operator that is a variant without content. -/
def readOp {α : Type} (spelling : α → String) (ops : List α) (room : Nat) : Reader α :=
  variant (ops.map fun op => ⟨spelling op, .none op⟩) (0 < room)

/-- Reads an additive operator. -/
def readAddOp : Nat → Reader AddOp :=
  readOp AddOp.text [.add, .sub]

/-- Reads a multiplicative operator. -/
def readMulOp : Nat → Reader MulOp :=
  readOp MulOp.text [.mul, .div]

/-- Reads a comparison. -/
def readCompOp : Nat → Reader CompOp :=
  readOp CompOp.text [.less, .greater, .equal, .notEqual, .lessEqual, .greaterEqual]

/-! ## Expressions -/

/-- Reads an expression by readers of its parts. -/
def exprOf (parts? : Option (Reader Factor × Reader (List (AddOp × Factor)))) : Reader Expr :=
  record "struct Expr"
    (match parts? with
      | none => none
      | some (first, rest) => some (required "first" first (defaulted "rest" rest [] .nil)))
    fun (first, rest, _) => ⟨first, rest⟩

/-- Reads a factor by readers of its parts. -/
def factorOf (parts? : Option (Reader Primary × Reader (List (MulOp × Primary)))) :
    Reader Factor :=
  record "struct Factor"
    (match parts? with
      | none => none
      | some (first, rest) => some (required "first" first (defaulted "rest" rest [] .nil)))
    fun (first, rest, _) => ⟨first, rest⟩

/-- The variants of a primary, by a reader of the expression in a group. -/
def primaryVariants (inner : Reader Expr) : List (Variant Primary) :=
  [⟨"atom", .single (text.map .atom)⟩, ⟨"group", .single (inner.map .group)⟩]

mutual

/-- Reads an expression. -/
def readExpr : Nat → Reader Expr
  | 0 => exprOf none
  | room + 1 => exprOf (some (readFactor room, readTerms room))

/-- Reads the operators and factors after the first one. -/
def readTerms : Nat → Reader (List (AddOp × Factor))
  | 0 => list none
  | room + 1 => list (some (readTerm room))

/-- Reads an additive operator with its factor. -/
def readTerm : Nat → Reader (AddOp × Factor)
  | 0 => pair none
  | room + 1 => pair (some (readAddOp room, readFactor room))

/-- Reads a factor. -/
def readFactor : Nat → Reader Factor
  | 0 => factorOf none
  | room + 1 => factorOf (some (readPrimary room, readProducts room))

/-- Reads the operators and primaries after the first one. -/
def readProducts : Nat → Reader (List (MulOp × Primary))
  | 0 => list none
  | room + 1 => list (some (readProduct room))

/-- Reads a multiplicative operator with its primary. -/
def readProduct : Nat → Reader (MulOp × Primary)
  | 0 => pair none
  | room + 1 => pair (some (readMulOp room, readPrimary room))

/-- Reads a primary. -/
def readPrimary : Nat → Reader Primary
  | 0 => variant (primaryVariants closed) false
  | room + 1 => variant (primaryVariants (readExpr room)) true

end

/-- Reads a condition. -/
def readCond (room : Nat) : Reader Cond :=
  record "struct Cond"
    (inside room fun room =>
      required "lhs" (readExpr room) (required "op" (readCompOp room)
        (required "rhs" (readExpr room) .nil)))
    fun (lhs, op, rhs, _) => ⟨lhs, op, rhs⟩

/-! ## Declarations -/

/-- Reads the content of a variable declaration. -/
def readVarDecl (room : Nat) : Reader Decl :=
  record "struct variant Decl::Var"
    (inside room fun room =>
      required "ty" (readNumTy room) (required "idents" (readTexts room) .nil))
    fun (ty, idents, _) => .var ty idents

/-- Reads the content of a string declaration. -/
def readStringDecl (room : Nat) : Reader Decl :=
  record "struct variant Decl::String"
    (inside room fun _ => required "ident" text (required "literal" text .nil))
    fun (ident, literal, _) => .string ident literal

/-- Reads a declaration. -/
def readDecl (room : Nat) : Reader Decl :=
  variant [⟨"var", .fields (readVarDecl (room - 1))⟩, ⟨"string", .fields (readStringDecl (room - 1))⟩]
    (0 < room)

/-- Reads a list of declarations. -/
def readDecls (room : Nat) : Reader (List Decl) :=
  list (inside room readDecl)

/-- Reads a parameter. -/
def readParam (room : Nat) : Reader Param :=
  record "struct Param"
    (inside room fun room => required "ty" (readNumTy room) (required "ident" text .nil))
    fun (ty, ident, _) => ⟨ty, ident⟩

/-! ## Statements -/

/-- Reads the content of an assignment. -/
def readAssign (room : Nat) : Reader Stmt :=
  record "struct variant Stmt::Assign"
    (inside room fun room => required "target" text (required "expr" (readExpr room) .nil))
    fun (target, expr, _) => .assign target expr

/-- Reads the content of an `if` by readers of the statements and the else part in it. -/
def ifOf (room : Nat) (parts? : Option (Reader (List Stmt) × Reader ElsePart)) : Reader Stmt :=
  record "struct variant Stmt::If"
    (match parts? with
      | none => none
      | some (body, elsePart) =>
        some (required "cond" (readCond (room - 1)) (defaulted "decls" (readDecls (room - 1)) []
          (defaulted "then" body [] (defaulted "else" (optional elsePart) none .nil)))))
    fun (cond, decls, body, elsePart, _) => .ifThen cond decls body elsePart

/-- Reads the content of a `while` by a reader of the statements in it. -/
def whileOf (room : Nat) (body? : Option (Reader (List Stmt))) : Reader Stmt :=
  record "struct variant Stmt::While"
    (match body? with
      | none => none
      | some body =>
        some (required "cond" (readCond (room - 1)) (defaulted "decls" (readDecls (room - 1)) []
          (defaulted "body" body [] .nil))))
    fun (cond, decls, body, _) => .while cond decls body

/-- Reads an else part by a reader of the statements in it. -/
def elseOf (room : Nat) (body? : Option (Reader (List Stmt))) : Reader ElsePart :=
  record "struct ElsePart"
    (match body? with
      | none => none
      | some body => some (defaulted "decls" (readDecls (room - 1)) [] (defaulted "body" body [] .nil)))
    fun (decls, body, _) => ⟨decls, body⟩

/-- The variants of a statement, by readers of the two that hold statements. -/
def stmtVariants (room : Nat) (ifThen whileLoop : Reader Stmt) : List (Variant Stmt) :=
  [⟨"assign", .fields (readAssign room)⟩,
   ⟨"read", .single ((readTexts room).map .read)⟩,
   ⟨"write", .single ((readTexts room).map .write)⟩,
   ⟨"return", .single ((readExpr room).map .return)⟩,
   ⟨"if", .fields ifThen⟩,
   ⟨"while", .fields whileLoop⟩]

mutual

/-- Reads a statement. -/
def readStmt : Nat → Reader Stmt
  | 0 => variant (stmtVariants 0 closed closed) false
  | room + 1 => variant (stmtVariants room (readIf room) (readWhile room)) true

/-- Reads a list of statements. -/
def readStmts : Nat → Reader (List Stmt)
  | 0 => list none
  | room + 1 => list (some (readStmt room))

/-- Reads the content of an `if`. -/
def readIf : Nat → Reader Stmt
  | 0 => ifOf 0 none
  | room + 1 => ifOf (room + 1) (some (readStmts room, readElse room))

/-- Reads the content of a `while`. -/
def readWhile : Nat → Reader Stmt
  | 0 => whileOf 0 none
  | room + 1 => whileOf (room + 1) (some (readStmts room))

/-- Reads an else part. -/
def readElse : Nat → Reader ElsePart
  | 0 => elseOf 0 none
  | room + 1 => elseOf (room + 1) (some (readStmts room))

end

/-! ## Programs -/

/-- Reads a procedure. -/
def readFuncDecl (room : Nat) : Reader FuncDecl :=
  record "struct FuncDecl"
    (inside room fun room =>
      required "ident" text (defaulted "params" (list (inside room readParam)) []
        (defaulted "decls" (readDecls room) [] (defaulted "body" (readStmts room) [] .nil))))
    fun (ident, params, decls, body, _) => ⟨ident, params, decls, body⟩

/-- Reads a program. -/
def readProgram (room : Nat) : Reader Program :=
  record "struct Program"
    (inside room fun room =>
      required "ident" text (defaulted "decls" (readDecls room) []
        (defaulted "funcs" (list (inside room readFuncDecl)) [] .nil)))
    fun (ident, decls, funcs, _) => ⟨ident, decls, funcs⟩

/-- Number of brackets that may be open at once. -/
def Program.maxDepth : Nat := 127

/-- The program of a text given by its characters. Only white space may follow it. -/
def Program.ofChars (text : List Char) : Except Defect Program :=
  match readProgram Program.maxDepth text with
  | .error d => .error d
  | .ok (program, rest) => if (skipBlank rest).isEmpty then .ok program else .error .malformed

/-- The program of a JSON text. -/
def Program.decode (text : String) : Except Defect Program :=
  Program.ofChars text.toList

end TinyGen.ParseTree
