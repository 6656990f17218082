import TinyGen.Statement

/-!
# Three-address code

The intermediate code: typed instructions over variables, constants and numbered temporaries.
-/

namespace TinyGen.ThreeAddress

/-- A temporary. -/
structure Temp where
  number : Nat
  deriving DecidableEq, Repr

/-- What an instruction reads or stores into. -/
inductive Operand where
  | temp (t : Temp)
  | var (ident : String)
  | literal (text : String)
  deriving DecidableEq, Repr

/-- Instruction. -/
inductive Instr where
  | label (name : String)
  | link
  | ret
  | store (ty : Ty) (src dst : Operand)
  | binary (op : BinOp) (ty : Ty) (lhs rhs : Operand) (dst : Temp)
  | read (ty : Ty) (ident : String)
  | write (ty : Ty) (ident : String)
  deriving DecidableEq, Repr

/-- Instructions, with the number of temporaries allocated for them. -/
structure Code where
  instrs : List Instr
  temps : Nat
  deriving DecidableEq, Repr

/-- Name of a temporary. -/
def Temp.text (t : Temp) : String :=
  "$T" ++ toString t.number

/-- Text of an operand. -/
def Operand.text : Operand → String
  | .temp t => t.text
  | .var ident => ident
  | .literal text => text

/-- Opcode of an operator, without its type. -/
def opcode : BinOp → String
  | .add => "ADD"
  | .sub => "SUB"
  | .mul => "MULT"
  | .div => "DIV"

/-- Line of an instruction. -/
def Instr.text : Instr → String
  | .label name => ";LABEL " ++ name
  | .link => ";LINK"
  | .ret => ";RET"
  | .store ty src dst => ";STORE" ++ ty.suffix ++ " " ++ src.text ++ " " ++ dst.text
  | .binary op ty lhs rhs dst =>
    ";" ++ opcode op ++ ty.suffix ++ " " ++ lhs.text ++ " " ++ rhs.text ++ " " ++ dst.text
  | .read ty ident => ";READ" ++ ty.suffix ++ " " ++ ident
  | .write ty ident => ";WRITE" ++ ty.suffix ++ " " ++ ident

/-- Lines of the listing. -/
def Code.lines (code : Code) : List String :=
  ";IR code" :: code.instrs.map Instr.text

end TinyGen.ThreeAddress
