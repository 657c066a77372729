import ZMachine.Operation.Branching

/-!
# Variables and tables

Variables named by an operand, elements of arrays, and searches and copies of whole tables.
-/

namespace ZMachine

/-! ## 1. Searching and copying -/

namespace Table

/-- The address of an array element; it wraps around within 16 bits. -/
def element (array offset : Word) : Nat :=
  (array + offset).toNat

/-- The entry of a table at an address, as a word or a byte. -/
def entry (m : Memory) (words : Bool) (addr : Nat) : Except Fault Word := do
  if words then m.readWord addr else return (← m.readByte addr).toUInt16

/-- The address of the first of so many entries that equals `target`. Entries behind it are not
read. -/
def find (m : Memory) (target : Word) (words : Bool) (stride : Nat) :
    Nat → Nat → Except Fault (Option Nat)
  | 0, _ => .ok none
  | count + 1, addr => do
      let value ← entry m words addr
      if value = target then return some addr
      else find m target words stride count (addr + stride)

/-- Copies so many bytes one after the other, lowest first. -/
def copyForward : Nat → Nat → Nat → Action Machine Unit
  | 0, _, _ => return ()
  | count + 1, source, dest => do
      let b ← (← get).memory.readByte source
      Machine.writeByte dest b
      copyForward count (source + 1) (dest + 1)

/-- Copies `size` bytes, or clears them if there is no destination. A negative size asks for a copy
byte by byte; otherwise the source is read whole before anything is written. -/
def copy (source dest : Nat) (size : Int) : Action Machine Unit := do
  let length := size.natAbs
  if dest = 0 then
    Machine.writeSlice source (List.replicate length 0)
  else if size < 0 then
    copyForward length source dest
  else
    let data ← (← get).memory.slice source length
    Machine.writeSlice dest data

end Table

/-! ## 2. The instructions -/

namespace Handler

open Machine

/-- Changes a variable in place. -/
def changeVar (f : Word → Word) (i : Instruction) (args : List Word) : Action Machine Flow := do
  let var ← operand i args 0
  let _ ← change f var
  return .next

/-- Adds 1 to a variable. -/
def inc := changeVar (· + 1)

/-- Takes 1 from a variable. -/
def dec := changeVar (· - 1)

/-- Delivers the value of a variable. -/
def load (i : Instruction) (args : List Word) : Action Machine Flow := do
  let var ← operand i args 0
  let value ← loadIndirect var
  deliver i value

/-- Writes a variable. -/
def store (i : Instruction) (args : List Word) : Action Machine Flow := do
  let var ← operand i args 0
  let value ← operand i args 1
  storeIndirect var value
  return .next

/-- Delivers a word of an array. -/
def loadw (i : Instruction) (args : List Word) : Action Machine Flow := do
  let array ← operand i args 0
  let index ← operand i args 1
  let value ← (← get).memory.readWord (Table.element array (index * 2))
  deliver i value

/-- Delivers a byte of an array. -/
def loadb (i : Instruction) (args : List Word) : Action Machine Flow := do
  let array ← operand i args 0
  let index ← operand i args 1
  let value ← (← get).memory.readByte (Table.element array index)
  deliver i value.toUInt16

/-- Writes a word of an array. -/
def storew (i : Instruction) (args : List Word) : Action Machine Flow := do
  let array ← operand i args 0
  let index ← operand i args 1
  let value ← operand i args 2
  writeWord (Table.element array (index * 2)) value
  return .next

/-- Writes a byte of an array. -/
def storeb (i : Instruction) (args : List Word) : Action Machine Flow := do
  let array ← operand i args 0
  let index ← operand i args 1
  let value ← operand i args 2
  writeByte (Table.element array index) value.toUInt8
  return .next

/-- The form of a table of words that stand close together. -/
def wordTableForm : Word := 0x82

/-- Delivers the address of the first entry that equals the operand, and branches if there is one.
In the form of the table, bit 7 says that entries are words, the other bits how far they are
apart. -/
def scanTable (i : Instruction) (args : List Word) : Action Machine Flow := do
  let target ← operand i args 0
  let table ← operand i args 1
  let count ← operand i args 2
  let form := args.getD 3 wordTableForm
  let memory := (← get).memory
  let found ←
    Table.find memory target (form &&& 0x80 != 0) (form &&& 0x7f).toNat count.toNat table.toNat
  storeResult i.store (UInt16.ofNat (found.getD 0))
  branch i.branch found.isSome

/-- Copies or clears a table. -/
def copyTable (i : Instruction) (args : List Word) : Action Machine Flow := do
  let source ← operand i args 0
  let dest ← operand i args 1
  let size ← operand i args 2
  Table.copy source.toNat dest.toNat size.toInt16.toInt
  return .next

end Handler

end ZMachine
