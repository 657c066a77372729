/-!
# Instruction forms

How an instruction is laid out (`Form`) and which of the five opcode tables its number is read in
(`OperandCount`). The two are independent: an opcode of the two-operand table may be written in long
or in variable form.
-/

namespace ZMachine

/-- The layout of an instruction, decided by its first byte. -/
inductive Form where
  | long
  | short
  | extended
  | variable
  deriving DecidableEq, Repr

/-- The opcode table an instruction's number is looked up in. -/
inductive OperandCount where
  /-- No operand. -/
  | op0
  /-- One operand. -/
  | op1
  /-- Two operands in long form, up to four in variable form. -/
  | op2
  /-- Up to four operands, or up to eight behind two type bytes. -/
  | var
  /-- The extended table, from version 5 on. -/
  | ext
  deriving DecidableEq, Repr

/-- The name of a form in messages. -/
def Form.name : Form → String
  | .long => "Long"
  | .short => "Short"
  | .extended => "Extended"
  | .variable => "Variable"

/-- The name of an opcode table in messages. -/
def OperandCount.name : OperandCount → String
  | .op0 => "OP0"
  | .op1 => "OP1"
  | .op2 => "OP2"
  | .var => "VAR"
  | .ext => "EXT"

end ZMachine
