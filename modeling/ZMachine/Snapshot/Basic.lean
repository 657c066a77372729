import ZMachine.Machine.Basic
import ZMachine.Snapshot.Compression

/-!
# Snapshots

A snapshot holds dynamic memory in its compressed form, the value stack, the call frames, and the
address of the instruction that took it.

* `Snapshot.capture` : the snapshot of a machine.
* `Snapshot.apply`   : puts a snapshot back; if that fails the machine is as before.
* `SaveStore`        : where a host keeps saved games.
-/

namespace ZMachine

/-- A saved state of the machine. -/
structure Snapshot where
  /-- Dynamic memory, compressed against the story as loaded. -/
  memory : List UInt8
  /-- The value stack, top first. -/
  stack : List Word
  /-- The call frames, that of the running routine first. -/
  frames : List Frame
  /-- The address of the instruction that took the snapshot. -/
  pc : Nat
  deriving DecidableEq, Repr

namespace Snapshot

/-- The size of dynamic memory, which must lie in memory and in the story as loaded. -/
def dynamicSize (memory : Memory) (story : Array UInt8) : Except Fault Nat := do
  let base ← Header.staticMemoryBase memory
  if base.toNat > story.size ∨ base.toNat > memory.size then
    .error (.addressOutOfRange base.toNat (min story.size memory.size))
  else
    return base.toNat

/-- The first bytes of the story as loaded. -/
def storyPart (story : Array UInt8) (length : Nat) : Except Fault (List UInt8) :=
  if length ≤ story.size then .ok (story.extract 0 length).toList else .error (.defect .story)

/-- The snapshot of a machine, taken by the instruction at `pc`. -/
def capture (m : Machine) (story : Array UInt8) (pc : Nat) : Except Fault Snapshot := do
  let size ← dynamicSize m.memory story
  let current ← m.memory.slice 0 size
  let memory ← Compression.compress current (← storyPart story size)
  return { memory, stack := m.stack, frames := m.frames, pc }

/-- Puts a snapshot back and gives the address of the instruction that took it. -/
def apply (s : Snapshot) (story : Array UInt8) : Action Machine Nat := do
  let size ← dynamicSize (← get).memory story
  let bytes ← Compression.decompress s.memory (← storyPart story size)
  Machine.writeSlice 0 bytes
  modify fun m => { m with stack := s.stack, frames := s.frames, pc := s.pc }
  return s.pc

end Snapshot

/-- Where a host keeps saved games. -/
inductive SaveStore where
  /-- The last saved game is kept. -/
  | slot (held : Option Snapshot)
  /-- Every save is turned down, and nothing can be restored. -/
  | declining
  /-- Every save and every restore fails. -/
  | failing
  deriving DecidableEq, Repr

namespace SaveStore

/-- Keeps a snapshot. Says whether it was kept. -/
def save (snapshot : Snapshot) : SaveStore → Except Fault (Bool × SaveStore)
  | slot _ => .ok (true, slot (some snapshot))
  | declining => .ok (false, declining)
  | failing => .error (.refused .storeFull)

/-- The last snapshot kept. -/
def restore : SaveStore → Except Fault (Option Snapshot)
  | slot held => .ok held
  | declining => .ok none
  | failing => .error (.refused .storeGone)

end SaveStore

end ZMachine
