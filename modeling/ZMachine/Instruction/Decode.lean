import ZMachine.Instruction.Basic
import ZMachine.ZString

/-!
# Reading instructions

An instruction is read from left to right: its first byte decides the form, then come the bytes that
type its operands, the operands, and what the opcode asks for after them. Reading changes nothing
but the place it has come to.

* `Cursor`             : a reader of memory that moves a place along.
* `Instruction.scan`   : the whole instruction from the place on.
* `Instruction.decode` : the instruction at an address.
-/

namespace ZMachine

/-- A computation that moves a place in memory along. -/
abbrev Cursor := Action Nat

namespace Cursor

/-- The byte at the place. -/
def byte (m : Memory) : Cursor UInt8 := do
  let place ← get
  let b ← m.readByte place
  set (place + 1)
  return b

/-- The word at the place. -/
def word (m : Memory) : Cursor Word := do
  let place ← get
  let w ← m.readWord place
  set (place + 2)
  return w

/-- Moves past the encoded string at the place and gives its start. -/
def text (m : Memory) : Cursor Nat := do
  let place ← get
  let length ← ZString.encodedLength m place
  set (place + length)
  return place

end Cursor

namespace Instruction

/-! ## 1. The first bytes -/

/-- The form the first byte of an instruction announces. -/
def formOf (version first : UInt8) : Form :=
  if first = 0xbe then (if 5 ≤ version then .extended else .long)
  else if first < 0x80 then .long
  else if first < 0xc0 then .short
  else .variable

/-- The four operand slots of a type byte. -/
def slots (types : UInt8) : List (Option OperandKind) :=
  [types >>> 6, types >>> 4, types >>> 2, types].map OperandKind.ofBits?

/-- The kinds up to the first empty slot. -/
def kinds : List (Option OperandKind) → List OperandKind
  | some kind :: rest => kind :: kinds rest
  | _ => []

/-- The kind of an operand in long form, by its bit of the first byte. -/
def longKind (bit : UInt8) : OperandKind :=
  if bit = 0 then .small else .variable

/-- Whether an opcode is typed by two bytes. -/
def hasTwoTypeBytes (op : Opcode) : Bool :=
  op.count == .var && (op.number == 0x0c || op.number == 0x1a)

/-- Form, opcode and operand kinds, from the first bytes of an instruction. -/
def scanHead (m : Memory) (version : UInt8) : Cursor (Form × Opcode × List OperandKind) := do
  let first ← Cursor.byte m
  match formOf version first with
  | .long =>
      return (.long, ⟨.op2, first &&& 0x1f⟩, [longKind (first &&& 0x40), longKind (first &&& 0x20)])
  | .short =>
      match OperandKind.ofBits? (first >>> 4) with
      | none => return (.short, ⟨.op0, first &&& 0x0f⟩, [])
      | some kind => return (.short, ⟨.op1, first &&& 0x0f⟩, [kind])
  | .variable =>
      let op : Opcode := ⟨if first &&& 0x20 = 0 then .op2 else .var, first &&& 0x1f⟩
      let types ← Cursor.byte m
      if hasTwoTypeBytes op then
        let more ← Cursor.byte m
        return (.variable, op, kinds (slots types ++ slots more))
      else
        return (.variable, op, kinds (slots types))
  | .extended =>
      let number ← Cursor.byte m
      let types ← Cursor.byte m
      return (.extended, ⟨.ext, number⟩, kinds (slots types))

/-! ## 2. Operands and what follows them -/

/-- An operand of the given kind. -/
def scanOperand (m : Memory) (kind : OperandKind) : Cursor Operand :=
  match kind with
  | .large => do return ⟨kind, ← Cursor.word m⟩
  | .small | .variable => do return ⟨kind, (← Cursor.byte m).toUInt16⟩

/-- The operands of the given kinds. -/
def scanOperands (m : Memory) : List OperandKind → Cursor (List Operand)
  | [] => return []
  | kind :: rest => do
      let operand ← scanOperand m kind
      return operand :: (← scanOperands m rest)

/-- The number of 14 bits, the highest of which is the sign. -/
def signed14 (high low : UInt8) : Int :=
  let value : Nat := (high &&& 0x3f).toNat * 256 + low.toNat
  if value < 0x2000 then value else (value : Int) - 0x4000

/-- A branch: one byte for the distances up to 63, else two. -/
def scanBranch (m : Memory) : Cursor Branch := do
  let first ← Cursor.byte m
  let onTrue := first &&& 0x80 != 0
  if first &&& 0x40 != 0 then
    return ⟨onTrue, (first &&& 0x3f).toNat⟩
  else
    return ⟨onTrue, signed14 first (← Cursor.byte m)⟩

/-- Reads something only if it is there. -/
def scanIf {α : Type} (present : Bool) (read : Cursor α) : Cursor (Option α) :=
  if present then some <$> read else return none

/-! ## 3. Instructions -/

/-- The instruction from the place on. -/
def scan (m : Memory) (version : UInt8) : Cursor Instruction := do
  let start ← get
  let (form, opcode, kinds) ← scanHead m version
  let operands ← scanOperands m kinds
  let store ← scanIf (opcode.storesResult version) (Cursor.byte m)
  let branch ← scanIf (opcode.hasBranch version) (scanBranch m)
  let textAddr ← scanIf opcode.hasText (Cursor.text m)
  let stop ← get
  return { opcode, form, operands, store, branch, textAddr, size := stop - start }

/-- The instruction at an address, in a story of the given version. -/
def decode (m : Memory) (addr : Nat) (version : UInt8) : Except Fault Instruction :=
  match scan m version addr with
  | .ok i _ => .ok i
  | .error e _ => .error e

end Instruction

end ZMachine
