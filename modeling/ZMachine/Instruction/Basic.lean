import ZMachine.Instruction.Opcode
import ZMachine.Memory

/-!
# Instructions

A decoded instruction. Its operands are raw: an operand of the variable kind still holds the number
of the variable, which is read only when the instruction is executed.

* `Instruction`         : the record a decoder produces.
* `Instruction.listing` : its line in a listing.
-/

namespace ZMachine

/-- What an operand's bits mean. -/
inductive OperandKind where
  /-- A constant of two bytes. -/
  | large
  /-- A constant of one byte. -/
  | small
  /-- The number of a variable, in one byte. -/
  | variable
  deriving DecidableEq, Repr

/-- The kind the low two bits of a byte name; the fourth pattern says that there is no operand. -/
def OperandKind.ofBits? (bits : UInt8) : Option OperandKind :=
  if bits &&& 3 = 0 then some .large
  else if bits &&& 3 = 1 then some .small
  else if bits &&& 3 = 2 then some .variable
  else none

/-- The number of bytes an operand of the kind takes up. -/
def OperandKind.width : OperandKind → Nat
  | .large => 2
  | .small | .variable => 1

/-- An operand as it stands in the instruction. -/
structure Operand where
  kind : OperandKind
  raw : Word
  deriving DecidableEq, Repr

/-- Where a conditional instruction goes. -/
structure Branch where
  /-- Whether the branch is taken when the condition holds, rather than when it fails. -/
  onTrue : Bool
  /-- 0 and 1 return that value; anything else is a distance. -/
  offset : Int
  deriving DecidableEq, Repr

/-- A decoded instruction. -/
structure Instruction where
  opcode : Opcode
  form : Form
  operands : List Operand
  /-- The variable that receives the result. -/
  store : Option UInt8
  branch : Option Branch
  /-- Where the inline string starts. -/
  textAddr : Option Nat
  /-- The number of bytes of the whole instruction. -/
  size : Nat
  deriving DecidableEq, Repr

namespace Instruction

/-- The name of the instruction in a story version. -/
def name (i : Instruction) (version : UInt8) : String :=
  i.opcode.name version

/-- An operand in a listing. -/
def operandText (o : Operand) : String :=
  match o.kind with
  | .variable => "V" ++ Numeral.hex 2 o.raw.toNat
  | .large | .small => "#" ++ Numeral.hex 4 o.raw.toNat

/-- The operands in a listing. -/
def operandsText : List Operand → String
  | [] => ""
  | operands => " " ++ ", ".intercalate (operands.map operandText)

/-- The store variable in a listing. -/
def storeText : Option UInt8 → String
  | none => ""
  | some var => " -> V" ++ Numeral.hex 2 var.toNat

/-- The branch in a listing. -/
def branchText : Option Branch → String
  | none => ""
  | some branch =>
      " [" ++ (if branch.onTrue then "TRUE" else "FALSE") ++
        (if branch.offset = 0 then " RFALSE"
          else if branch.offset = 1 then " RTRUE"
          else " " ++ Numeral.signed branch.offset) ++ "]"

/-- The line of the instruction in a listing, with the names of the given version. -/
def listing (i : Instruction) (version : UInt8) : String :=
  i.name version ++ operandsText i.operands ++ storeText i.store ++ branchText i.branch

end Instruction

end ZMachine
