import ZMachine.Operation.Printing

/-!
# The screen

Instructions that lay out the screen, and the status line. Sounds are accepted and not played.
-/

namespace ZMachine.Handler

open Session

variable {H : Host}

/-- The name of the object the first global variable holds, if objects are known and it is one. -/
def locationName : Exec H String := do
  let location ← onMachine (Machine.readGlobal 0x10)
  let s ← get
  match s.objects with
  | some objects =>
      if location = 0 then return ""
      else
        let addr ← H.objectModel.nameAddress objects s.machine.memory location
        decodeText addr
  | none => return ""

/-- Shows the status line: the first three globals, and what the header says of them. -/
def refreshStatusLine : Exec H Unit := do
  let location ← locationName
  let left ← onMachine (Machine.readGlobal 0x11)
  let right ← onMachine (Machine.readGlobal 0x12)
  let flags ← Header.flags1 (← memory)
  onScreen (·.showStatus { location, left, right, timeGame := flags &&& 0x02 != 0 })

/-- Shows the status line, up to version 3. -/
def showStatus (_ : Instruction) (_ : List Word) : Exec H Flow := do
  if (← get).machine.version ≤ 3 then
    refreshStatusLine
  return .next

/-- Changes the screen by one operand. -/
def screenOp (change : Screen → Word → Screen) (i : Instruction) (args : List Word) :
    Exec H Flow := do
  let value ← argument i args 0
  onScreen (change · value)
  return .next

/-- Gives the upper window a height. -/
def splitWindow : Instruction → List Word → Exec H Flow :=
  screenOp Screen.splitWindow

/-- Selects a window. -/
def setWindow : Instruction → List Word → Exec H Flow :=
  screenOp Screen.setWindow

/-- Erases a window. -/
def eraseWindow : Instruction → List Word → Exec H Flow :=
  screenOp Screen.eraseWindow

/-- Erases a line. -/
def eraseLine : Instruction → List Word → Exec H Flow :=
  screenOp Screen.eraseLine

/-- Sets the text style. -/
def setTextStyle : Instruction → List Word → Exec H Flow :=
  screenOp Screen.setTextStyle

/-- Turns buffering on or off. -/
def bufferMode : Instruction → List Word → Exec H Flow :=
  screenOp fun screen flag => screen.setBuffered (flag != 0)

/-- Moves the cursor; the column is 1 unless given. -/
def setCursor (i : Instruction) (args : List Word) : Exec H Flow := do
  let line ← argument i args 0
  onScreen (·.setCursor line (args.getD 1 1))
  return .next

/-- Writes line and column of the cursor to an array. -/
def getCursor (i : Instruction) (args : List Word) : Exec H Flow := do
  let array := (← argument i args 0).toNat
  let (line, column) := (← get).screen.cursor
  onMachine (Machine.writeWord array line)
  onMachine (Machine.writeWord (array + 2) column)
  return .next

/-- Plays no sound. -/
def soundEffect (_ : Instruction) (_ : List Word) : Exec H Flow :=
  return .next

/-- Sets the colours. -/
def setColour (i : Instruction) (args : List Word) : Exec H Flow := do
  let foreground ← argument i args 0
  let background ← argument i args 1
  onScreen (·.setColour foreground background)
  return .next

/-- Selects a font and delivers the one before. -/
def setFont (i : Instruction) (args : List Word) : Exec H Flow := do
  let font ← argument i args 0
  let (previous, screen) := (← get).screen.setFont font
  onScreen fun _ => screen
  onMachine (Machine.deliver i previous)

end ZMachine.Handler
