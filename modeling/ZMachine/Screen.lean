import ZMachine.Memory

/-!
# The screen

Text goes to the output sink; the screen keeps the layout only: windows, cursor, style, colours,
font, and the status line that was last shown.
-/

namespace ZMachine

/-- The status line: where the player is, and two numbers that are score and turns, or hours and
minutes. -/
structure StatusLine where
  location : String
  left : Word
  right : Word
  timeGame : Bool
  deriving DecidableEq, Repr

/-- The layout of the screen. -/
structure Screen where
  /-- The height of the upper window. -/
  upperLines : Word := 0
  /-- The selected window: 0 is the lower, 1 the upper. -/
  window : Word := 0
  /-- Line and column of the cursor, counted from 1. -/
  cursor : Word × Word := (1, 1)
  style : Word := 0
  buffered : Bool := true
  /-- Foreground and background. -/
  colours : Word × Word := (1, 1)
  font : Word := 1
  status : Option StatusLine := none
  deriving DecidableEq, Repr

namespace Screen

/-- Gives the upper window a height. -/
def splitWindow (s : Screen) (lines : Word) : Screen :=
  { s with upperLines := lines }

/-- Selects a window. The cursor goes home in the upper one. -/
def setWindow (s : Screen) (window : Word) : Screen :=
  { s with window, cursor := if window = 1 then (1, 1) else s.cursor }

/-- Erases a window and takes the cursor home. Window -1 also closes the upper window. -/
def eraseWindow (s : Screen) (window : Word) : Screen :=
  if window = 0xffff then { s with upperLines := 0, window := 0, cursor := (1, 1) }
  else { s with cursor := (1, 1) }

/-- Erases a line, which leaves the layout as it is. -/
def eraseLine (s : Screen) (_ : Word) : Screen := s

/-- Moves the cursor. Lines that are not positive only show or hide it. -/
def setCursor (s : Screen) (line column : Word) : Screen :=
  if line.toInt16 > 0 then { s with cursor := (line, column) } else s

/-- Adds to the text style, or clears it for 0. -/
def setTextStyle (s : Screen) (style : Word) : Screen :=
  { s with style := if style = 0 then 0 else s.style ||| style }

/-- Turns buffering on or off. -/
def setBuffered (s : Screen) (buffered : Bool) : Screen :=
  { s with buffered }

/-- Sets the colours; 0 keeps the one in force. -/
def setColour (s : Screen) (foreground background : Word) : Screen :=
  { s with colours := (if foreground = 0 then s.colours.1 else foreground,
                        if background = 0 then s.colours.2 else background) }

/-- Selects a font and gives the one before. There are fonts 1 and 4; 0 asks for the one in force,
and for any other the answer is 0. -/
def setFont (s : Screen) (font : Word) : Word × Screen :=
  if font = 0 then (s.font, s)
  else if font = 1 ∨ font = 4 then (s.font, { s with font })
  else (0, s)

/-- Shows the status line. -/
def showStatus (s : Screen) (status : StatusLine) : Screen :=
  { s with status := some status }

end Screen

end ZMachine
