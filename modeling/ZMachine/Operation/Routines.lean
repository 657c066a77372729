import ZMachine.Machine.Control

/-!
# Routines and the stack

Calls and returns, leaving several routines at once, and values pushed and pulled.
-/

namespace ZMachine.Handler

open Machine

/-- Calls the routine the first operand names with the other operands. Whether the result is kept
is up to the instruction's store byte. -/
def callRoutine (i : Instruction) (args : List Word) : Action Machine Flow := do
  let routine ← operand i args 0
  let arguments ← furtherOperands args
  call routine arguments i.store

/-- Returns 1. -/
def rtrue (_ : Instruction) (_ : List Word) : Action Machine Flow :=
  ret 1

/-- Returns 0. -/
def rfalse (_ : Instruction) (_ : List Word) : Action Machine Flow :=
  ret 0

/-- Returns the operand. -/
def retValue (i : Instruction) (args : List Word) : Action Machine Flow := do
  let value ← operand i args 0
  ret value

/-- Returns the top of the stack. -/
def retPopped (_ : Instruction) (_ : List Word) : Action Machine Flow := do
  let value ← pop
  ret value

/-- Drops the top of the stack. -/
def dropTop (_ : Instruction) (_ : List Word) : Action Machine Flow := do
  let _ ← pop
  return .next

/-- Delivers the number of running routines, for a later `throwTo`. -/
def catchFrame (i : Instruction) (_ : List Word) : Action Machine Flow := do
  let depth := (← get).depth
  deliver i (UInt16.ofNat depth)

/-- Leaves all routines above the one with the number, and returns the value from that one. -/
def throwTo (i : Instruction) (args : List Word) : Action Machine Flow := do
  let value ← operand i args 0
  let number ← operand i args 1
  let m ← get
  if number = 0 ∨ m.depth < number.toNat then
    throw .returnWithoutCaller
  else
    set { m with frames := m.frames.drop (m.depth - number.toNat) }
    ret value

/-- Pushes the operand. -/
def pushValue (i : Instruction) (args : List Word) : Action Machine Flow := do
  let value ← operand i args 0
  push value
  return .next

/-- Takes the top value of a stack in memory: its first word counts the free slots behind it, which
the used ones follow. -/
def popUserStack (table : Nat) : Action Machine Word := do
  let memory := (← get).memory
  let free := (← memory.readWord table) + 1
  let value ← memory.readWord (table + 2 * free.toNat)
  writeWord table free
  return value

/-- Pulls the top of the stack into a variable. In version 6 it is delivered as a result instead,
and may come from a stack in memory. -/
def pull (i : Instruction) (args : List Word) : Action Machine Flow := do
  if (← get).version = 6 then
    let value ← match args with
      | table :: _ => popUserStack table.toNat
      | [] => pop
    deliver i value
  else
    let var ← operand i args 0
    let value ← pop
    storeIndirect var value
    return .next

/-- Branches if the running routine was given at least so many arguments. -/
def checkArgCount (i : Instruction) (args : List Word) : Action Machine Flow := do
  let count ← operand i args 0
  let frame ← currentFrame
  branch i.branch (count.toNat ≤ frame.argCount)

end ZMachine.Handler
