import ZMachine.Fault

/-!
# Input

The input source hands over one line at a time, up to and with its newline. A story reads lines or
single characters; what a character leaves of its line is held for the next read.

* `Input.ofText`, `Input.ofBytes` : a source of known contents.
* `Input.readLine`                : the rest of the current line, without its line end.
* `Input.readChar`                : the next character.
-/

namespace ZMachine

/-- An input source, and the characters read ahead from it. -/
structure Input where
  /-- What is left of the line in hand. -/
  pending : List Char
  /-- The lines still to come, each with its newline; `none` is a line that is not text. -/
  lines : List (Option (List Char))
  deriving DecidableEq, Repr

namespace Input

/-! ## 1. Sources -/

/-- Cuts a list after every element that ends a piece. -/
def piecesAfter {α : Type} (ends : α → Bool) : List α → List (List α)
  | [] => []
  | a :: rest =>
      if ends a then [a] :: piecesAfter ends rest
      else match piecesAfter ends rest with
        | [] => [[a]]
        | piece :: pieces => (a :: piece) :: pieces

/-- The source of a text. -/
def ofText (text : List Char) : Input :=
  { pending := [], lines := (piecesAfter (· == '\n') text).map some }

/-- The source of a row of bytes, a line of which is text if it is valid UTF-8. -/
def ofBytes (bytes : List UInt8) : Input :=
  let text? := fun (line : List UInt8) =>
    (String.fromUTF8? (ByteArray.mk line.toArray)).map (·.toList)
  { pending := [], lines := (piecesAfter (· == 10) bytes).map text? }

/-- The source with one more line at its end. -/
def feed (input : Input) (line : Option (List Char)) : Input :=
  { input with lines := input.lines ++ [line] }

/-! ## 2. Reads -/

/-- Takes the next line from the source. At its end that is an empty text. -/
def fetch : Action Input (List Char) := do
  let input ← get
  match input.lines with
  | [] => return []
  | line :: rest =>
      set { input with lines := rest }
      match line with
      | some text => return text
      | none => throw (.channel .notText)

/-- A line without the carriage returns at its end. -/
def dropReturns (line : List Char) : List Char :=
  (line.reverse.dropWhile (· == '\r')).reverse

/-- Reads the rest of the current line, or the next one, without its line end. -/
def readLine : Action Input (Option (List Char)) := do
  let held := (← get).pending
  modify fun input => { input with pending := [] }
  let line ← if '\n' ∈ held then pure held else (held ++ ·) <$> fetch
  if line.isEmpty then
    return none
  else
    modify fun input => { input with pending := (line.dropWhile (· != '\n')).drop 1 }
    return some (dropReturns (line.takeWhile (· != '\n')))

/-- Reads the next character. -/
def readChar : Action Input (Option Char) := do
  let held := (← get).pending
  let line ← if held.isEmpty then fetch else pure held
  match line with
  | [] => return none
  | c :: rest =>
      modify fun input => { input with pending := rest }
      return some c

end Input

end ZMachine
