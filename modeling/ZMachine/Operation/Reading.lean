import ZMachine.Operation.Display
import ZMachine.Session.Reading

/-!
# Reading

Instructions that read a line or a character from the player. The end of input stops the story as
`quit` does. Lines reach the story in small letters; what these are is given to the instruction.
-/

namespace ZMachine.Handler

open Session

variable {H : Host}

/-- Selects an input stream; there is only the keyboard. -/
def inputStream (i : Instruction) (args : List Word) : Exec H Flow := do
  let _ ← argument i args 0
  return .next

/-- The request to take the line in a text buffer apart with the story's own dictionary. -/
def plainRequest (textBuffer parseBuffer : Nat) : TokenRequest :=
  { textBuffer, parseBuffer, dictionary := none, skipUnknown := false }

/-- Reads a line into a text buffer, up to version 4. Byte 0 of the buffer holds its size; the line
starts at byte 1 and ends with a zero byte. -/
def sread (small : List Char → List Char) (i : Instruction) (args : List Word) : Exec H Flow := do
  let buffer := (← argument i args 0).toNat
  let parseBuffer := (args.getD 1 0).toNat
  if (← get).machine.version ≤ 3 then
    refreshStatusLine
  let size ← (← memory).readByte buffer
  match ← readCodes small (size.toNat - 1) with
  | none => return .quit
  | some codes =>
      onMachine (Machine.writeSlice (buffer + 1) codes)
      onMachine (Machine.writeByte (buffer + 1 + codes.length) 0)
      tokenise (plainRequest buffer parseBuffer)
      return .next

/-- Reads a line into a text buffer, from version 5 on. Byte 0 of the buffer holds its capacity,
byte 1 receives the length of the line, which starts at byte 2. -/
def aread (small : List Char → List Char) (i : Instruction) (args : List Word) : Exec H Flow := do
  let buffer := (← argument i args 0).toNat
  let parseBuffer := (args.getD 1 0).toNat
  let capacity ← (← memory).readByte buffer
  match ← readCodes small capacity.toNat with
  | none => return .quit
  | some codes =>
      onMachine (Machine.writeByte (buffer + 1) (UInt8.ofNat codes.length))
      onMachine (Machine.writeSlice (buffer + 2) codes)
      tokenise (plainRequest buffer parseBuffer)
      onMachine (Machine.deliver i Zscii.newline)

/-- Delivers the code of the next character. -/
def readCharacter (i : Instruction) (_ : List Word) : Exec H Flow := do
  match ← readChar with
  | none => return .quit
  | some c => onMachine (Machine.deliver i (Zscii.ofChar c))

/-- Takes the line in a text buffer apart, perhaps with another dictionary. -/
def tokeniseBuffer (i : Instruction) (args : List Word) : Exec H Flow := do
  let textBuffer := (← argument i args 0).toNat
  let parseBuffer := (← argument i args 1).toNat
  let dictionary := (args[2]?.filter (· != 0)).map (·.toNat)
  let skipUnknown := args.getD 3 0 != 0
  tokenise { textBuffer, parseBuffer, dictionary, skipUnknown }
  return .next

end ZMachine.Handler
