import ZMachine.Header

/-!
# The machine

Memory, program counter, value stack and call frames, and the variables that live in them: variable
0 is the stack, 1 to 15 are the locals of the running routine, 16 to 255 the globals in memory.

* `Frame`, `Machine`                        : the state.
* `Machine.load`                            : the machine of a story image.
* `Machine.reset`                           : back to the story's entry point.
* `Machine.push`, `pop`, `peek`             : the value stack.
* `Machine.loadVar`, `storeVar`             : variables, with 0 popping and pushing.
* `Machine.loadIndirect`, `storeIndirect`   : variables named by an operand, with 0 in place.
* `Machine.writeByte`, `writeWord`, `writeSlice` : writes to its memory.

Stack and frames are lists with the top first.
-/

namespace ZMachine

/-! ## 1. State -/

/-- A routine being executed. -/
structure Frame where
  /-- Where the caller goes on. -/
  returnPc : Nat
  /-- The caller's variable for the result, if it wants one. -/
  returnStore : Option UInt8
  locals : List Word
  /-- How many arguments the caller gave. -/
  argCount : Nat
  /-- How many values were on the stack when the routine was called. -/
  stackBase : Nat
  deriving DecidableEq, Repr, Inhabited

/-- The frame that nothing called, with the given locals. -/
def Frame.main (locals : List Word) : Frame :=
  { returnPc := 0, returnStore := none, locals, argCount := 0, stackBase := 0 }

/-- The state of the machine. -/
structure Machine where
  memory : Memory
  /-- The story version, as it was when the story was loaded. -/
  version : UInt8
  /-- The address of the next instruction. -/
  pc : Nat
  /-- The value stack, top first. -/
  stack : List Word
  /-- The call frames, that of the running routine first. -/
  frames : List Frame
  /-- How many values the stack may hold. -/
  stackLimit : Nat
  deriving DecidableEq, Repr, Inhabited

namespace Machine

/-- The limit of the value stack unless the settings give another. -/
def defaultStackLimit : Nat := 1024

/-- The greatest number of locals of a routine. -/
def maxLocals : Nat := 15

/-! ## 2. Memory -/

/-- Changes memory after a check of its range. -/
def update (addr width : Nat) (change : Memory → Memory) : Action Machine Unit := do
  (← get).memory.check addr width
  modify fun m => { m with memory := change m.memory }

/-- Writes a byte. -/
def writeByte (addr : Nat) (value : UInt8) : Action Machine Unit :=
  update addr 1 (·.setByte addr value)

/-- Writes a word. -/
def writeWord (addr : Nat) (value : Word) : Action Machine Unit :=
  update addr 2 (·.setWord addr value)

/-- Writes a row of bytes. -/
def writeSlice (addr : Nat) (data : List UInt8) : Action Machine Unit :=
  update addr data.length (·.overwrite addr data)

/-! ## 3. Loading and starting -/

/-- The number of locals a routine declares in its first byte. -/
def localCount (memory : Memory) (addr : Nat) : Except Fault Nat := do
  let count ← memory.readByte addr
  if count.toNat > maxLocals then .error (.invalidRoutine addr count) else .ok count.toNat

/-- Empties the stacks and goes to the story's entry point. Up to version 5 that is an address; from
version 6 on it is a routine without a caller. -/
def reset : Action Machine Unit := do
  modify fun m => { m with stack := [], frames := [] }
  let m ← get
  let initial ← Header.initialPc m.memory
  if m.version ≤ 5 then
    set { m with pc := initial.toNat, frames := [Frame.main []] }
  else
    let addr ← PackedAddress.routine m.memory initial
    let count ← localCount m.memory addr
    set { m with pc := addr + 1, frames := [Frame.main (List.replicate count 0)] }

/-- The machine of a story image, at its entry point. The image must hold a header and be of a known
version. -/
def load (image : Array UInt8) : Except Fault Machine := do
  if image.size < Header.size then
    .error (.imageTooSmall image.size)
  else
    let memory : Memory := ⟨image⟩
    let version ← Header.version memory
    let _ ← PackedAddress.unit version
    let blank : Machine :=
      { memory, version, pc := 0, stack := [], frames := [], stackLimit := defaultStackLimit }
    match reset blank with
    | .ok () m => .ok m
    | .error e _ => .error e

/-! ## 4. The value stack -/

/-- Puts a value on the stack. -/
def push (value : Word) : Action Machine Unit := do
  let m ← get
  if m.stackLimit ≤ m.stack.length then
    throw (.stackOverflow m.stackLimit)
  else
    set { m with stack := value :: m.stack }

/-- Takes the top value off the stack. -/
def pop : Action Machine Word := do
  let m ← get
  match m.stack with
  | [] => throw .stackUnderflow
  | value :: rest => do
      set { m with stack := rest }
      return value

/-- The top value of the stack. -/
def peek : Action Machine Word := do
  match (← get).stack with
  | [] => throw .stackUnderflow
  | value :: _ => return value

/-- Puts a value in the place of the top one. -/
def replaceTop (value : Word) : Action Machine Unit := do
  let m ← get
  match m.stack with
  | [] => throw .stackUnderflow
  | _ :: rest => set { m with stack := value :: rest }

/-! ## 5. Variables -/

/-- The address of a global variable, which the header decides anew each time. -/
def globalAddr (memory : Memory) (var : Word) : Except Fault Nat := do
  if 0x10 ≤ var ∧ var ≤ 0xff then
    let table ← Header.globalVariables memory
    return table.toNat + (var.toNat - 0x10) * 2
  else
    .error (.invalidVariable var)

/-- The value of a global variable. -/
def readGlobal (var : Word) : Action Machine Word := do
  let memory := (← get).memory
  let addr ← globalAddr memory var
  memory.readWord addr

/-- Writes a global variable. -/
def writeGlobal (var value : Word) : Action Machine Unit := do
  let addr ← globalAddr (← get).memory var
  writeWord addr value

/-- The place of a local variable among the locals of the running routine. They are numbered from 1
on. -/
def localSlot (frames : List Frame) (var : Word) : Except Fault Nat :=
  let available := (frames.head?.map (·.locals.length)).getD 0
  if var = 0 then .error (.defect .localSlot)
  else if var.toNat - 1 < available then .ok (var.toNat - 1)
  else .error (.noSuchLocal var.toUInt8 available)

/-- The value of a local variable. -/
def readLocal (var : Word) : Action Machine Word := do
  let m ← get
  let slot ← localSlot m.frames var
  match m.frames.head?.bind (·.locals[slot]?) with
  | some value => return value
  | none => throw (.defect .localSlot)

/-- Writes a local variable. -/
def writeLocal (var value : Word) : Action Machine Unit := do
  let m ← get
  let slot ← localSlot m.frames var
  match m.frames with
  | frame :: rest =>
      if slot < frame.locals.length then
        set { m with frames := { frame with locals := frame.locals.set slot value } :: rest }
      else
        throw (.defect .localSlot)
  | [] => throw (.defect .localSlot)

/-- The value of a variable; variable 0 takes it off the stack. -/
def loadVar (var : Word) : Action Machine Word :=
  if var = 0 then pop
  else if var < 0x10 then readLocal var
  else if var ≤ 0xff then readGlobal var
  else throw (.invalidVariable var)

/-- Writes a variable; variable 0 puts the value on the stack. -/
def storeVar (var value : Word) : Action Machine Unit :=
  if var = 0 then push value
  else if var < 0x10 then writeLocal var value
  else if var ≤ 0xff then writeGlobal var value
  else throw (.invalidVariable var)

/-- The value of a variable named by an operand; the stack keeps its top. -/
def loadIndirect (var : Word) : Action Machine Word :=
  if var = 0 then peek else loadVar var

/-- Writes a variable named by an operand; the stack gets a new top in place of the old. -/
def storeIndirect (var value : Word) : Action Machine Unit :=
  if var = 0 then replaceTop value else storeVar var value

/-- Writes a result to the variable that wants it, if one does. -/
def storeResult (store : Option UInt8) (value : Word) : Action Machine Unit :=
  match store with
  | none => return ()
  | some var => storeVar var.toUInt16 value

/-! ## 6. Frames -/

/-- How many routines are running. -/
def depth (m : Machine) : Nat :=
  m.frames.length

/-- The frame of the running routine. -/
def currentFrame : Action Machine Frame := do
  match (← get).frames with
  | [] => throw .returnWithoutCaller
  | frame :: _ => return frame

end Machine

end ZMachine
