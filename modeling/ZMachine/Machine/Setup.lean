import ZMachine.Instruction.Decode
import ZMachine.Machine.Control
import ZMachine.Snapshot.Basic

/-!
# Setting the machine up again

The header fields the interpreter owns, and the two ways back to an earlier state: a restart from
the story as loaded, and the return to a snapshot.

* `Machine.configureHeader` : fills in what the interpreter offers.
* `Machine.restart`         : the story from its start.
* `Machine.resume`          : the state of a snapshot, after the instruction that took it.

Both ways back keep the two flags the player owns.
-/

namespace ZMachine.Machine

/-- Fills in the header fields that the interpreter owns. -/
def configureHeader : Action Machine Unit := do
  let m ← get
  if m.version ≤ 3 then
    let flags ← m.memory.readByte 0x01
    writeByte 0x01 ((flags &&& 0xef) ||| 0x20)
  else
    writeByte 0x1e 6
    writeByte 0x1f 65
    writeByte 0x20 24
    writeByte 0x21 80
  if 5 ≤ m.version then
    writeWord 0x22 80
    writeWord 0x24 24
    writeByte 0x26 1
    writeByte 0x27 1
  writeWord 0x32 0x0101

/-- The flags that neither a restart nor a return to a snapshot changes: transcript and fixed
pitch. -/
def keptFlags : Word := 0x0003

/-- Loads dynamic memory from the story again and goes to its entry point. -/
def restart (story : Array UInt8) : Action Machine Unit := do
  let memory := (← get).memory
  let kept := (← Header.flags2 memory) &&& keptFlags
  let base ← Header.staticMemoryBase memory
  if base.toNat ≤ story.size then
    writeSlice 0 (story.extract 0 base.toNat).toList
  else
    throw (.addressOutOfRange base.toNat story.size)
  let flags ← Header.flags2 (← get).memory
  writeWord Header.flags2Addr (flags ||| kept)
  reset
  configureHeader

/-- What the instruction that took a snapshot stores when the machine returns to it. -/
def restored : Word := 2

/-- Reports to an instruction whether it succeeded: by its branch up to version 3, by its result
later. -/
def reportOutcome (i : Instruction) (success : Bool) (result : Word) : Action Machine Flow := do
  if (← get).version ≤ 3 then
    branch i.branch success
  else
    deliver i result

/-- Puts back memory, stack and frames of a snapshot, keeps the player's flags, and fills in the
header fields that the interpreter owns. Gives the address of the instruction that took it. -/
def restoreState (snapshot : Snapshot) (story : Array UInt8) : Action Machine Nat := do
  let flags ← Header.flags2 (← get).memory
  let pc ← snapshot.apply story
  let restoredFlags ← Header.flags2 (← get).memory
  writeWord Header.flags2Addr ((restoredFlags &&& ~~~keptFlags) ||| (flags &&& keptFlags))
  configureHeader
  return pc

/-- Returns to a snapshot and goes on as if the instruction that took it had just succeeded. -/
def resume (snapshot : Snapshot) (story : Array UInt8) : Action Machine Flow := do
  let pc ← restoreState snapshot story
  let m ← get
  let taker ← Instruction.decode m.memory pc m.version
  set { m with pc := pc + taker.size }
  reportOutcome taker true restored

end ZMachine.Machine
