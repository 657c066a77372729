import ZMachine.Instruction.Basic
import ZMachine.Machine.Basic

/-!
# Control flow

What instructions share: reading operands, delivering results, branching, calling and returning.

* `Flow`                   : how execution goes on after an instruction.
* `Machine.resolve`        : the values of raw operands, from left to right.
* `Machine.operand`        : one of the values, or a fault naming the instruction.
* `Machine.branch`, `jump` : conditional and relative jumps.
* `Machine.call`, `ret`    : routines. A call builds its frame completely or changes nothing.
-/

namespace ZMachine

/-- How execution goes on after an instruction. -/
inductive Flow where
  /-- With the instruction after it. -/
  | next
  /-- At the target of a branch or jump. -/
  | branched
  /-- In the routine it called. -/
  | called
  /-- In the caller of the routine that ended with the value. -/
  | returned (value : Word)
  /-- Not at all. -/
  | quit
  deriving DecidableEq, Repr

namespace Machine

/-! ## 1. Operands and results -/

/-- The value of an operand; a variable operand is read, and variable 0 taken off the stack. -/
def resolveOperand (o : Operand) : Action Machine Word :=
  match o.kind with
  | .variable => loadVar o.raw
  | .large | .small => return o.raw

/-- The values of the operands, from left to right. -/
def resolve : List Operand → Action Machine (List Word)
  | [] => return []
  | o :: rest => do
      let value ← resolveOperand o
      return value :: (← resolve rest)

/-- The value at an index, which the instruction needs. -/
def operand (i : Instruction) (args : List Word) (index : Nat) : Action Machine Word := do
  match args[index]? with
  | some value => return value
  | none => throw (.missingOperand (i.name (← get).version) index)

/-- The values after the first. -/
def furtherOperands (args : List Word) : Action Machine (List Word) :=
  match args with
  | _ :: rest => return rest
  | [] => throw (.defect .operands)

/-- Delivers a result and goes on. -/
def deliver (i : Instruction) (value : Word) : Action Machine Flow := do
  storeResult i.store value
  return .next

/-! ## 2. Returning -/

/-- The lowest so many values of a stack. -/
def bottom (count : Nat) (stack : List Word) : List Word :=
  stack.drop (stack.length - count)

/-- Ends the running routine with a value: its caller goes on, with the stack as the call left it
and the value in the variable the caller wants it in. -/
def ret (value : Word) : Action Machine Flow := do
  let m ← get
  match m.frames with
  | frame :: caller :: rest =>
      set { m with
            pc := frame.returnPc
            stack := bottom frame.stackBase m.stack
            frames := caller :: rest }
      storeResult frame.returnStore value
      return .returned value
  | _ => throw .returnWithoutCaller

/-! ## 3. Jumps -/

/-- The address a fault reports for a jump to `target`: the target as a signed number of 64 bits, or
0 if that is negative. -/
def reportedTarget (target : Int) : Nat :=
  (target.bmod 0x10000000000000000).toNat

/-- Where relative jumps start from: the program counter, which as a number of 64 bits beyond memory
is read as signed. -/
def jumpOrigin (m : Machine) : Int :=
  if m.pc ≤ m.memory.size then m.pc else (m.pc : Int).bmod 0x10000000000000000

/-- Moves the program counter by `offset - 2`, which must lead to a place in memory. -/
def jump (offset : Int) : Action Machine Unit := do
  let m ← get
  let target := m.jumpOrigin + offset - 2
  if 0 ≤ target ∧ target < m.memory.size then
    set { m with pc := target.toNat }
  else
    throw (.addressOutOfRange (reportedTarget target) m.memory.size)

/-- Branches as the instruction says when its condition has the given value. The offsets 0 and 1
return that value. -/
def branch (b : Option Branch) (condition : Bool) : Action Machine Flow :=
  match b with
  | none => return .next
  | some b =>
      if condition ≠ b.onTrue then return .next
      else if b.offset = 0 then ret 0
      else if b.offset = 1 then ret 1
      else do
        jump b.offset
        return .branched

/-! ## 4. Calling -/

/-- So many words from an address on. -/
def readWords (memory : Memory) (addr : Nat) : Nat → Except Fault (List Word)
  | 0 => .ok []
  | count + 1 => do
      let w ← memory.readWord addr
      return w :: (← readWords memory (addr + 2) count)

/-- Locals with the first of them replaced by the arguments; arguments beyond them are lost. -/
def withArguments : List Word → List Word → List Word
  | _ :: locals, arg :: args => arg :: withArguments locals args
  | locals, _ => locals

/-- Locals before the arguments are put in, and where the code starts. Up to version 4 the initial
values stand behind the count, later all locals start as 0. -/
def routineStart (memory : Memory) (version : UInt8) (addr : Nat) :
    Except Fault (List Word × Nat) := do
  let count ← localCount memory addr
  if version ≤ 4 then
    return (← readWords memory (addr + 1) count, addr + 1 + 2 * count)
  else
    return (List.replicate count 0, addr + 1)

/-- Calls the routine at a packed address. Address 0 stands for a routine that only returns 0. -/
def call (packed : Word) (args : List Word) (store : Option UInt8) : Action Machine Flow := do
  if packed = 0 then
    storeResult store 0
    return .next
  else
    let m ← get
    let addr ← PackedAddress.routine m.memory packed
    let (locals, pc) ← routineStart m.memory m.version addr
    let frame : Frame :=
      { returnPc := m.pc
        returnStore := store
        locals := withArguments locals args
        argCount := args.length
        stackBase := m.stack.length }
    set { m with pc, frames := frame :: m.frames }
    return .called

end Machine

end ZMachine
