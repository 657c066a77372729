import ZMachine.Fault

/-!
# Story memory

One flat row of bytes holds the whole story; words are big-endian. Every access is checked against
the end of memory, and a write that fails changes nothing.

* `Memory.readByte`, `readWord`, `slice`         : checked reads.
* `Memory.writeByte`, `writeWord`, `writeSlice`  : checked writes.
* `Memory.setByte`, `setWord`, `overwrite`       : the changes they make once the check has passed.
-/

namespace ZMachine

/-- A 16-bit word. Whether it is read as signed is up to the reader. -/
abbrev Word := UInt16

/-- The word with the given high and low byte. -/
def Word.ofBytes (high low : UInt8) : Word :=
  (high.toUInt16 <<< 8) ||| low.toUInt16

/-- The high byte of a word. -/
def Word.high (w : Word) : UInt8 :=
  (w >>> 8).toUInt8

/-- The low byte of a word. -/
def Word.low (w : Word) : UInt8 :=
  w.toUInt8

/-- The bytes of a story. -/
structure Memory where
  bytes : Array UInt8
  deriving DecidableEq, Repr, Inhabited

namespace Memory

/-- The number of bytes. -/
def size (m : Memory) : Nat :=
  m.bytes.size

/-! ## 1. The range check -/

/-- Fails unless the `width` bytes from `addr` on lie in memory. -/
def check (m : Memory) (addr width : Nat) : Except Fault Unit :=
  if addr + width ≤ m.size then .ok () else .error (.addressOutOfRange addr m.size)

/-! ## 2. Reads -/

/-- The byte at an address. -/
def readByte (m : Memory) (addr : Nat) : Except Fault UInt8 :=
  match m.bytes[addr]? with
  | some b => .ok b
  | none => .error (.addressOutOfRange addr m.size)

/-- The word at an address; both its bytes must lie in memory. -/
def readWord (m : Memory) (addr : Nat) : Except Fault Word :=
  match m.bytes[addr]?, m.bytes[addr + 1]? with
  | some high, some low => .ok (Word.ofBytes high low)
  | _, _ => .error (.addressOutOfRange addr m.size)

/-- The `length` bytes from `addr` on. -/
def slice (m : Memory) (addr length : Nat) : Except Fault (List UInt8) := do
  m.check addr length
  return (m.bytes.extract addr (addr + length)).toList

/-! ## 3. Writes -/

/-- Puts a byte at an address in memory. -/
def setByte (m : Memory) (addr : Nat) (value : UInt8) : Memory :=
  ⟨m.bytes.setIfInBounds addr value⟩

/-- Puts a word at an address in memory. -/
def setWord (m : Memory) (addr : Nat) (value : Word) : Memory :=
  (m.setByte addr value.high).setByte (addr + 1) value.low

/-- Puts a row of bytes at an address in memory. -/
def overwrite (m : Memory) (addr : Nat) : List UInt8 → Memory
  | [] => m
  | b :: rest => overwrite (m.setByte addr b) (addr + 1) rest

/-- Writes a byte. -/
def writeByte (m : Memory) (addr : Nat) (value : UInt8) : Except Fault Memory := do
  m.check addr 1
  return m.setByte addr value

/-- Writes a word; both its bytes are checked before either is written. -/
def writeWord (m : Memory) (addr : Nat) (value : Word) : Except Fault Memory := do
  m.check addr 2
  return m.setWord addr value

/-- Writes a row of bytes, all of them or none. -/
def writeSlice (m : Memory) (addr : Nat) (data : List UInt8) : Except Fault Memory := do
  m.check addr data.length
  return m.overwrite addr data

/-! ## 4. Sizes and successful reads -/

/-- A byte can only be read in memory. -/
theorem lt_size_of_readByte {m : Memory} {addr : Nat} {b : UInt8} (h : m.readByte addr = .ok b) :
    addr < m.size := by
  unfold readByte at h
  split at h
  · rename_i hb
    exact (Array.getElem?_eq_some_iff.1 hb).1
  · cases h

/-- A word can only be read where both its bytes lie in memory. -/
theorem lt_size_of_readWord {m : Memory} {addr : Nat} {w : Word} (h : m.readWord addr = .ok w) :
    addr + 1 < m.size := by
  unfold readWord at h
  split at h
  · rename_i low hlow
    exact (Array.getElem?_eq_some_iff.1 hlow).1
  · cases h

@[simp] theorem size_setByte (m : Memory) (addr : Nat) (value : UInt8) :
    (m.setByte addr value).size = m.size := by
  simp [setByte, size]

@[simp] theorem size_setWord (m : Memory) (addr : Nat) (value : Word) :
    (m.setWord addr value).size = m.size := by
  simp [setWord]

@[simp] theorem size_overwrite (m : Memory) (addr : Nat) (data : List UInt8) :
    (m.overwrite addr data).size = m.size := by
  induction data generalizing m addr with
  | nil => rfl
  | cons b rest ih => simp [overwrite, ih]

end Memory

end ZMachine
