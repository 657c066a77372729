import ZMachine.Session.Output

/-!
# Reading input

Before anything is read the sink passes on what it holds, so that the player sees the question.
-/

namespace ZMachine.Session

variable {H : Host}

/-- Reads a line, without its line end. -/
def readLine : Exec H (Option (List Char)) := do
  flush
  onInput Input.readLine

/-- Reads a character. -/
def readChar : Exec H (Option Char) := do
  flush
  onInput Input.readChar

/-- The first codes of a line, at most so many. Characters without a code and line ends are left
out. -/
def lineCodes (capacity : Nat) (line : List Char) : List UInt8 :=
  (((line.filterMap Zscii.ofChar?).filter (· != Zscii.newline)).take capacity).map (·.toUInt8)

/-- Reads a line, in the small letters that `small` turns it into, as at most so many codes. -/
def readCodes (small : List Char → List Char) (capacity : Nat) :
    Exec H (Option (List UInt8)) := do
  match ← readLine with
  | none => return none
  | some line => return some (lineCodes capacity (small line))

/-- Has the tokenizer take the text buffer apart, if there is a parse buffer. -/
def tokenise (request : TokenRequest) : Exec H Unit :=
  if request.parseBuffer = 0 then return ()
  else onLexer (H.tokenizer.tokenise request)

end ZMachine.Session
