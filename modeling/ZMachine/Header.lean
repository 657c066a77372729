import ZMachine.Memory

/-!
# The story header

The first 64 bytes of memory describe the story. Nothing is kept apart from memory: every accessor
reads the bytes as they are now, so what a story writes to its own header counts from then on.

* `Header.version` … `Header.stringsOffset` : the fields.
* `Header.describe`                         : the listing of all fields.
* `PackedAddress.routine`, `PackedAddress.text` : the byte address a packed word stands for.
-/

namespace ZMachine

namespace Header

/-- The size of the header. -/
def size : Nat := 64

/-- The address of the word whose low bits are kept across restart and restore. -/
def flags2Addr : Nat := 0x10

/-- The story version. -/
def version (m : Memory) : Except Fault UInt8 := m.readByte 0x00

/-- The byte that says what the interpreter offers. -/
def flags1 (m : Memory) : Except Fault UInt8 := m.readByte 0x01

/-- The release number of the story. -/
def release (m : Memory) : Except Fault Word := m.readWord 0x02

/-- Where high memory starts. -/
def highMemoryBase (m : Memory) : Except Fault Word := m.readWord 0x04

/-- Where execution starts; from version 6 on the packed address of the main routine. -/
def initialPc (m : Memory) : Except Fault Word := m.readWord 0x06

/-- The address of the dictionary. -/
def dictionary (m : Memory) : Except Fault Word := m.readWord 0x08

/-- The address of the object table. -/
def objectTable (m : Memory) : Except Fault Word := m.readWord 0x0a

/-- The address of the global variables. -/
def globalVariables (m : Memory) : Except Fault Word := m.readWord 0x0c

/-- Where static memory starts, which is where dynamic memory ends. -/
def staticMemoryBase (m : Memory) : Except Fault Word := m.readWord 0x0e

/-- The word of flags that story and interpreter share. -/
def flags2 (m : Memory) : Except Fault Word := m.readWord flags2Addr

/-- The serial code, one character for each of its six bytes. -/
def serial (m : Memory) : Except Fault String := do
  let bytes ← m.slice 0x12 6
  return String.ofList (bytes.map fun b => Char.ofNat b.toNat)

/-- The address of the abbreviations table. -/
def abbreviations (m : Memory) : Except Fault Word := m.readWord 0x18

/-- The version, provided it has the field. -/
def versionWith (m : Memory) (field : HeaderField) (minimum : UInt8) : Except Fault UInt8 := do
  let v ← version m
  if v < minimum then .error (.unsupportedVersion field minimum v) else .ok v

/-- The unit in which a version counts the length of its file. -/
def lengthUnit (version : UInt8) : Nat :=
  if version ≤ 3 then 2 else if version ≤ 5 then 4 else 8

/-- The declared length of the story in bytes. -/
def fileLength (m : Memory) : Except Fault Nat := do
  let v ← versionWith m .fileLength 3
  let units ← m.readWord 0x1a
  return units.toNat * lengthUnit v

/-- The declared checksum. -/
def checksum (m : Memory) : Except Fault Word := do
  let _ ← versionWith m .checksum 3
  m.readWord 0x1c

/-- An eighth of what is added to packed routine addresses. -/
def routinesOffset (m : Memory) : Except Fault Word := do
  let _ ← versionWith m .routinesOffset 6
  m.readWord 0x28

/-- An eighth of what is added to packed string addresses. -/
def stringsOffset (m : Memory) : Except Fault Word := do
  let _ ← versionWith m .stringsOffset 6
  m.readWord 0x2a

/-- A field for the listing: an unreadable one counts as its empty value. -/
def orEmpty {α : Type} [Inhabited α] (field : Except Fault α) : α :=
  match field with
  | .ok a => a
  | .error _ => default

/-- The listing of the header. -/
def describe (m : Memory) : String :=
  let mark := fun (field : Except Fault Word) => Numeral.hexMark 6 (orEmpty field).toNat
  String.join [
    "\nZ-code version:           ", Numeral.decimal 0 (orEmpty (version m)).toNat,
    "\nInterpreter flags:        ", Numeral.hexMark 4 (orEmpty (flags1 m)).toNat,
    "\nRelease number:           ", Numeral.decimal 0 (orEmpty (release m)).toNat,
    "\nSize of resident memory:  ", mark (highMemoryBase m),
    "\nStart PC:                 ", mark (initialPc m),
    "\nDictionary address:       ", mark (dictionary m),
    "\nObject table address:     ", mark (objectTable m),
    "\nGlobal variables address: ", mark (globalVariables m),
    "\nSize of dynamic memory:   ", mark (staticMemoryBase m),
    "\nSerial number:            ", orEmpty (serial m),
    "\nAbbreviations address:    ", mark (abbreviations m),
    "\nFile size:                ", Numeral.hexMark 6 (orEmpty (fileLength m)),
    "\nChecksum:                 ", mark (checksum m),
    "\n"]

end Header

namespace PackedAddress

/-- The unit of packed addresses in a version. -/
def unit (version : UInt8) : Except Fault Nat :=
  if version = 0 then .error (.unknownVersion version)
  else if version ≤ 3 then .ok 2
  else if version ≤ 7 then .ok 4
  else if version = 8 then .ok 8
  else .error (.unknownVersion version)

/-- A packed word times the unit, plus the given header offset in versions 6 and 7. -/
def expand (m : Memory) (packed : Word) (offset : Memory → Except Fault Word) : Except Fault Nat := do
  let version ← Header.version m
  let base := packed.toNat * (← unit version)
  if version = 6 ∨ version = 7 then
    return base + 8 * (← offset m).toNat
  else
    return base

/-- The address of a packed routine. -/
def routine (m : Memory) (packed : Word) : Except Fault Nat :=
  expand m packed Header.routinesOffset

/-- The address of a packed string. -/
def text (m : Memory) (packed : Word) : Except Fault Nat :=
  expand m packed Header.stringsOffset

end PackedAddress

end ZMachine
