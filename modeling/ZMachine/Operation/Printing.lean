import ZMachine.Session.Output

/-!
# Printing

Instructions that send text to the output streams, and the one that selects the streams.
-/

namespace ZMachine.Handler

open Session

variable {H : Host}

/-- One of the operand values, as a step of a session. -/
def argument (i : Instruction) (args : List Word) (index : Nat) : Exec H Word :=
  onMachine (Machine.operand i args index)

/-- Prints the character of a code, or nothing if it has none. -/
def printCode (code : Word) : Exec H Unit :=
  match Zscii.toChar? code with
  | some c => writeOutput c.toString
  | none => return ()

/-- Prints the encoded string at an address. -/
def printAt (addr : Nat) : Exec H Unit := do
  let text ← decodeText addr
  writeOutput text

/-- Prints the string inside the instruction. -/
def printInline (i : Instruction) : Exec H Unit := do
  match i.textAddr with
  | some addr => printAt addr
  | none => throw (.missingOperand (i.name (← get).machine.version) 0)

/-- Prints the string inside the instruction. -/
def print (i : Instruction) (_ : List Word) : Exec H Flow := do
  printInline i
  return .next

/-- Prints the string inside the instruction and a line end, and returns 1. -/
def printRet (i : Instruction) (_ : List Word) : Exec H Flow := do
  printInline i
  writeOutput "\n"
  onMachine (Machine.ret 1)

/-- Prints a line end. -/
def newLine (_ : Instruction) (_ : List Word) : Exec H Flow := do
  writeOutput "\n"
  return .next

/-- Prints the string at a byte address. -/
def printAddr (i : Instruction) (args : List Word) : Exec H Flow := do
  let addr ← argument i args 0
  printAt addr.toNat
  return .next

/-- Prints the string at a packed address. -/
def printPaddr (i : Instruction) (args : List Word) : Exec H Flow := do
  let packed ← argument i args 0
  let addr ← PackedAddress.text (← memory) packed
  printAt addr
  return .next

/-- Prints the character of a code. -/
def printChar (i : Instruction) (args : List Word) : Exec H Flow := do
  let code ← argument i args 0
  printCode code
  return .next

/-- Prints a signed decimal number. -/
def printNum (i : Instruction) (args : List Word) : Exec H Flow := do
  let value ← argument i args 0
  writeOutput (Numeral.integer value.toInt16.toInt)
  return .next

/-- The character of a code point. The surrogates are no characters. -/
def unicodeChar? (code : Word) : Option Char :=
  if code.toNat.isValidChar then some (Char.ofNat code.toNat) else none

/-- Whether a character is a control character. -/
def isControl (c : Char) : Bool :=
  c.toNat < 0x20 || (0x7f ≤ c.toNat && c.toNat < 0xa0)

/-- Prints the character of a code point, or a question mark if it is none. -/
def printUnicode (i : Instruction) (args : List Word) : Exec H Flow := do
  let code ← argument i args 0
  writeOutput ((unicodeChar? code).getD '?').toString
  return .next

/-- Delivers 3 if the character of a code point can be printed and read, else 0. -/
def checkUnicode (i : Instruction) (args : List Word) : Exec H Flow := do
  let code ← argument i args 0
  let supported := match unicodeChar? code with
    | some c => !isControl c
    | none => false
  onMachine (Machine.deliver i (if supported then 3 else 0))

/-- Prints so many codes from an address on. -/
def printCells : Nat → Nat → Exec H Unit
  | 0, _ => return ()
  | count + 1, addr => do
      let code ← (← memory).readByte addr
      printCode code.toUInt16
      printCells count (addr + 1)

/-- Prints so many further rows of a table, each on a line of its own. -/
def printRows (width stride : Nat) : Nat → Nat → Exec H Unit
  | 0, _ => return ()
  | rows + 1, addr => do
      writeOutput "\n"
      printCells width addr
      printRows width stride rows (addr + stride)

/-- Prints a table of codes: rows of a width, so many of them, with so many bytes left out between
them. -/
def printTable (i : Instruction) (args : List Word) : Exec H Flow := do
  let table ← argument i args 0
  let width ← argument i args 1
  let height := (args.getD 2 1).toNat
  let stride := width.toNat + (args.getD 3 0).toNat
  if height = 0 then
    return .next
  else
    printCells width.toNat table.toNat
    printRows width.toNat stride (height - 1) (table.toNat + stride)
    return .next

/-- Selects an output stream, or turns away from the one with the negative number. 1 is the sink and
3 a table in memory; the others are not kept. -/
def outputStream (i : Instruction) (args : List Word) : Exec H Flow := do
  let stream ← argument i args 0
  let number := stream.toInt16.toInt
  if number = 1 then
    selectSink true
  else if number = -1 then
    selectSink false
  else if number = 3 then
    let table ← argument i args 1
    openTable table.toNat
  else if number = -3 then
    closeTable
  return .next

end ZMachine.Handler
