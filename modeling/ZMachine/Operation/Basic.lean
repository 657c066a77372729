import ZMachine.Operation.Dispatch

/-!
# Operations

The operations of the machine, free of how they are encoded, and the table that says which opcode
stands for which of them in which versions.

* `Operation`          : the operations.
* `Operation.standard` : the opcodes of versions 1 to 8.
-/

namespace ZMachine

/-- What an instruction does. -/
inductive Operation where
  -- arithmetic
  | bitOr | bitAnd | add | sub | mul | div | mod | bitNot | random | logShift | artShift
  -- comparisons and jumps
  | je | jl | jg | decChk | incChk | test | jz | jump | nop | quit | verify | piracy
  -- variables and tables
  | inc | dec | load | store | loadw | loadb | storew | storeb | scanTable | copyTable
  -- routines and the stack
  | rtrue | rfalse | retPopped | dropTop | catchFrame | call | ret | throwTo | push | pull
  | checkArgCount
  -- printing
  | print | printRet | newLine | printAddr | printPaddr | printChar | printNum | printTable
  | printUnicode | checkUnicode | outputStream
  -- reading
  | sread | aread | readChar | inputStream | tokenise
  -- objects
  | getSibling | getChild | getParent | getPropLen | removeObj | printObj | jin | testAttr
  | setAttr | clearAttr | insertObj | getProp | getPropAddr | getNextProp | putProp
  -- the screen
  | showStatus | setColour | splitWindow | setWindow | eraseWindow | eraseLine | setCursor
  | getCursor | setTextStyle | bufferMode | soundEffect | setFont
  -- saving and restoring
  | save | restore | restart | saveUndo | restoreUndo
  deriving DecidableEq, Repr

namespace Operation

/-- The opcodes without operands. -/
def entries0 : List (UInt8 × UInt8 × UInt8 × Operation) :=
  [(0x00, 1, 8, rtrue), (0x01, 1, 8, rfalse), (0x02, 1, 8, print), (0x03, 1, 8, printRet),
    (0x04, 1, 8, nop), (0x05, 1, 4, save), (0x06, 1, 4, restore), (0x07, 1, 8, restart),
    (0x08, 1, 8, retPopped), (0x09, 1, 4, dropTop), (0x09, 5, 8, catchFrame), (0x0a, 1, 8, quit),
    (0x0b, 1, 8, newLine), (0x0c, 1, 8, showStatus), (0x0d, 3, 8, verify), (0x0f, 5, 8, piracy)]

/-- The opcodes with one operand. -/
def entries1 : List (UInt8 × UInt8 × UInt8 × Operation) :=
  [(0x00, 1, 8, jz), (0x01, 1, 8, getSibling), (0x02, 1, 8, getChild), (0x03, 1, 8, getParent),
    (0x04, 1, 8, getPropLen), (0x05, 1, 8, inc), (0x06, 1, 8, dec), (0x07, 1, 8, printAddr),
    (0x08, 4, 8, call), (0x09, 1, 8, removeObj), (0x0a, 1, 8, printObj), (0x0b, 1, 8, ret),
    (0x0c, 1, 8, jump), (0x0d, 1, 8, printPaddr), (0x0e, 1, 8, load), (0x0f, 1, 4, bitNot),
    (0x0f, 5, 8, call)]

/-- The opcodes with two operands. -/
def entries2 : List (UInt8 × UInt8 × UInt8 × Operation) :=
  [(0x01, 1, 8, je), (0x02, 1, 8, jl), (0x03, 1, 8, jg), (0x04, 1, 8, decChk), (0x05, 1, 8, incChk),
    (0x06, 1, 8, jin), (0x07, 1, 8, test), (0x08, 1, 8, bitOr), (0x09, 1, 8, bitAnd),
    (0x0a, 1, 8, testAttr), (0x0b, 1, 8, setAttr), (0x0c, 1, 8, clearAttr), (0x0d, 1, 8, store),
    (0x0e, 1, 8, insertObj), (0x0f, 1, 8, loadw), (0x10, 1, 8, loadb), (0x11, 1, 8, getProp),
    (0x12, 1, 8, getPropAddr), (0x13, 1, 8, getNextProp), (0x14, 1, 8, add), (0x15, 1, 8, sub),
    (0x16, 1, 8, mul), (0x17, 1, 8, div), (0x18, 1, 8, mod), (0x19, 4, 8, call), (0x1a, 5, 8, call),
    (0x1b, 5, 8, setColour), (0x1c, 5, 8, throwTo)]

/-- The opcodes with a variable number of operands. -/
def entriesVar : List (UInt8 × UInt8 × UInt8 × Operation) :=
  [(0x00, 1, 8, call), (0x01, 1, 8, storew), (0x02, 1, 8, storeb), (0x03, 1, 8, putProp),
    (0x04, 1, 4, sread), (0x04, 5, 8, aread), (0x05, 1, 8, printChar), (0x06, 1, 8, printNum),
    (0x07, 1, 8, random), (0x08, 1, 8, push), (0x09, 1, 8, pull), (0x0a, 3, 8, splitWindow),
    (0x0b, 3, 8, setWindow), (0x0c, 4, 8, call), (0x0d, 4, 8, eraseWindow), (0x0e, 4, 8, eraseLine),
    (0x0f, 4, 8, setCursor), (0x10, 4, 8, getCursor), (0x11, 4, 8, setTextStyle),
    (0x12, 4, 8, bufferMode), (0x13, 3, 8, outputStream), (0x14, 3, 8, inputStream),
    (0x15, 3, 8, soundEffect), (0x16, 4, 8, readChar), (0x17, 4, 8, scanTable), (0x18, 5, 8, bitNot),
    (0x19, 5, 8, call), (0x1a, 5, 8, call), (0x1b, 5, 8, tokenise), (0x1d, 5, 8, copyTable),
    (0x1e, 5, 8, printTable), (0x1f, 5, 8, checkArgCount)]

/-- The extended opcodes. -/
def entriesExt : List (UInt8 × UInt8 × UInt8 × Operation) :=
  [(0x00, 5, 8, save), (0x01, 5, 8, restore), (0x02, 5, 8, logShift), (0x03, 5, 8, artShift),
    (0x04, 5, 8, setFont), (0x09, 5, 8, saveUndo), (0x0a, 5, 8, restoreUndo),
    (0x0b, 5, 8, printUnicode), (0x0c, 5, 8, checkUnicode)]

/-- The entries of one opcode table. -/
def entriesOf (count : OperandCount) (rows : List (UInt8 × UInt8 × UInt8 × Operation)) :
    List (DispatchEntry Operation) :=
  rows.map fun (number, first, last, target) => { opcode := ⟨count, number⟩, first, last, target }

/-- What the opcodes of versions 1 to 8 stand for. -/
def standard : DispatchTable Operation :=
  ⟨entriesOf .op0 entries0 ++ entriesOf .op1 entries1 ++ entriesOf .op2 entries2 ++
    entriesOf .var entriesVar ++ entriesOf .ext entriesExt⟩

end Operation

end ZMachine
