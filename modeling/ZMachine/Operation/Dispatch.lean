import ZMachine.Instruction.Opcode

/-!
# Dispatch tables

A dispatch table says what an opcode means in a story version. An opcode may have several entries,
each for a range of versions; the first one that fits counts.
-/

namespace ZMachine

/-- The meaning of an opcode in a closed range of versions. -/
structure DispatchEntry (α : Type) where
  opcode : Opcode
  first : UInt8
  last : UInt8
  target : α

/-- A table of entries, in the order they were added. -/
structure DispatchTable (α : Type) where
  entries : List (DispatchEntry α) := []

namespace DispatchTable

variable {α : Type}

/-- Adds an entry behind the others. -/
def add (table : DispatchTable α) (entry : DispatchEntry α) : DispatchTable α :=
  ⟨table.entries ++ [entry]⟩

/-- The number of entries. -/
def size (table : DispatchTable α) : Nat :=
  table.entries.length

/-- Whether there are no entries. -/
def isEmpty (table : DispatchTable α) : Bool :=
  table.entries.isEmpty

/-- Whether an entry is about an opcode in a version. -/
def fits (opcode : Opcode) (version : UInt8) (entry : DispatchEntry α) : Bool :=
  entry.opcode == opcode && entry.first ≤ version && version ≤ entry.last

/-- The meaning of an opcode in a version. -/
def lookup (table : DispatchTable α) (opcode : Opcode) (version : UInt8) : Option α :=
  (table.entries.find? (fits opcode version)).map (·.target)

end DispatchTable

end ZMachine
