import ZMachine.Machine.Control
import ZMachine.Session.Basic

/-!
# Comparisons and jumps

Instructions that compare and branch, jump, do nothing, or stop.
-/

namespace ZMachine.Handler

open Machine

/-- Branches if the first operand equals one of the others. -/
def je (i : Instruction) (args : List Word) : Action Machine Flow := do
  let a ← operand i args 0
  let _ ← operand i args 1
  let others ← furtherOperands args
  branch i.branch (others.contains a)

/-- Branches on a comparison of two operands. -/
def compare (test : Word → Word → Bool) (i : Instruction) (args : List Word) :
    Action Machine Flow := do
  let a ← operand i args 0
  let b ← operand i args 1
  branch i.branch (test a b)

/-- Branches if the first operand is less, both signed. -/
def jl := compare fun a b => a.toInt16 < b.toInt16

/-- Branches if the first operand is greater, both signed. -/
def jg := compare fun a b => b.toInt16 < a.toInt16

/-- Branches if all bits of the second operand are set in the first. -/
def test := compare fun bitmap flags => bitmap &&& flags == flags

/-- Changes a variable in place and gives the new value. -/
def change (f : Word → Word) (var : Word) : Action Machine Word := do
  let value := f (← loadIndirect var)
  storeIndirect var value
  return value

/-- Changes a variable and branches on a comparison of its new value with the second operand. -/
def changeAndCompare (f : Word → Word) (test : Word → Word → Bool) (i : Instruction)
    (args : List Word) : Action Machine Flow := do
  let var ← operand i args 0
  let limit ← operand i args 1
  let value ← change f var
  branch i.branch (test value limit)

/-- Adds 1 to a variable and branches if it is then greater than the second operand. -/
def incChk := changeAndCompare (· + 1) fun value limit => limit.toInt16 < value.toInt16

/-- Takes 1 from a variable and branches if it is then less than the second operand. -/
def decChk := changeAndCompare (· - 1) fun value limit => value.toInt16 < limit.toInt16

/-- Branches if the operand is 0. -/
def jz (i : Instruction) (args : List Word) : Action Machine Flow := do
  let a ← operand i args 0
  branch i.branch (a == 0)

/-- Jumps by the signed operand, in the same way as a branch. -/
def jumpBy (i : Instruction) (args : List Word) : Action Machine Flow := do
  let offset ← operand i args 0
  jump offset.toInt16.toInt
  return .branched

/-- Does nothing. -/
def nop (_ : Instruction) (_ : List Word) : Action Machine Flow :=
  return .next

/-- Stops. -/
def quit (_ : Instruction) (_ : List Word) : Action Machine Flow :=
  return .quit

/-- The sum of the bytes of a story from the end of its header up to a length. -/
def storySum (story : Array UInt8) (length : Nat) : Word :=
  (story.extract Header.size (min length story.size)).foldl (fun sum b => sum + b.toUInt16) 0

/-- Branches if the story as loaded has the checksum the header declares. -/
def verify {H : Host} (i : Instruction) (_ : List Word) : Exec H Flow := do
  let s ← get
  let expected ← Header.checksum s.machine.memory
  let length ← Header.fileLength s.machine.memory
  Session.onMachine (branch i.branch (storySum s.story length == expected))

/-- Branches: the story is taken to be genuine. -/
def piracy (i : Instruction) (_ : List Word) : Action Machine Flow :=
  branch i.branch true

end ZMachine.Handler
