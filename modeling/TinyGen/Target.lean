import TinyGen.Statement

/-!
# Target programs

Programs of the Tiny machine: storage declarations, then moves, two-address arithmetic and system
calls over named storage, constants and registers, then a halt.
-/

namespace TinyGen.Target

/-- A register. -/
structure Register where
  number : Nat
  deriving DecidableEq, Repr

/-- What an instruction reads or stores into. -/
inductive Operand where
  | register (r : Register)
  | var (ident : String)
  | immediate (text : String)
  deriving DecidableEq, Repr

/-- Instruction. -/
inductive Instr where
  /-- Declares storage for a number. -/
  | var (ident : String)
  /-- Declares storage for a string, with its text. -/
  | str (ident literal : String)
  | move (src dst : Operand)
  /-- Updates `dst` to `dst op src`. -/
  | arith (op : BinOp) (ty : NumTy) (src : Operand) (dst : Register)
  | read (ty : NumTy) (ident : String)
  | write (ty : Ty) (ident : String)
  | halt
  deriving DecidableEq, Repr

/-- Instructions, with the number of registers they use. -/
structure Program where
  instrs : List Instr
  registers : Nat
  deriving DecidableEq, Repr

/-- Name of a register. -/
def Register.text (r : Register) : String :=
  "r" ++ toString r.number

/-- Text of an operand. -/
def Operand.text : Operand → String
  | .register r => r.text
  | .var ident => ident
  | .immediate text => text

/-- Opcode of an operator, without its type. -/
def opcode : BinOp → String
  | .add => "add"
  | .sub => "sub"
  | .mul => "mul"
  | .div => "div"

/-- Letter of a type in an opcode. -/
def tyLetter : Ty → String
  | .int => "i"
  | .float => "r"
  | .string => "s"

/-- Line of an instruction. -/
def Instr.text : Instr → String
  | .var ident => "var " ++ ident
  | .str ident literal => "str " ++ ident ++ " " ++ literal
  | .move src dst => "move " ++ src.text ++ " " ++ dst.text
  | .arith op ty src dst => opcode op ++ tyLetter ty.toTy ++ " " ++ src.text ++ " " ++ dst.text
  | .read ty ident => "sys read" ++ tyLetter ty.toTy ++ " " ++ ident
  | .write ty ident => "sys write" ++ tyLetter ty ++ " " ++ ident
  | .halt => "sys halt"

/-- Lines of the program. -/
def Program.lines (program : Program) : List String :=
  program.instrs.map Instr.text

end TinyGen.Target
