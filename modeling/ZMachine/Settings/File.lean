import ZMachine.Settings.Basic

/-!
# The settings file

A settings file is a TOML document. Since every setting is a whole number or a truth value and no
other key is known, the documents that are settings form a small part of the language: lines that
are empty or give one known key, bare or quoted, one value. All other documents are refused.

* `SettingsFile.line?`  : what a line says.
* `SettingsFile.read?`  : the settings of a document.
-/

namespace ZMachine.SettingsFile

/-! ## 1. Lines -/

/-- The lines of a document. Each but the last ends with a newline, before which a carriage return
belongs to the line end. -/
def lines : List Char → List (List Char)
  | [] => [[]]
  | '\n' :: rest => [] :: lines rest
  | '\r' :: '\n' :: rest => [] :: lines rest
  | c :: rest =>
      match lines rest with
      | line :: more => (c :: line) :: more
      | [] => [[c]]

/-- A blank between the parts of a line. -/
def isSpace (c : Char) : Bool :=
  c == ' ' || c == '\t'

/-- A character of a comment: no control but the tab. -/
def isCommentChar (c : Char) : Bool :=
  c == '\t' || (' ' ≤ c && c != '\x7f')

/-- Whether the rest of a line says nothing: blanks, then at most a comment. -/
def isSilent (rest : List Char) : Bool :=
  match rest.dropWhile isSpace with
  | [] => true
  | '#' :: comment => comment.all isCommentChar
  | _ => false

/-! ## 2. Keys -/

/-- A character of a bare key. -/
def isBareKeyChar (c : Char) : Bool :=
  c.isAlphanum || c == '_' || c == '-'

/-- The character of an escape by code point with so many digits, and what follows it. -/
def codePoint? (digits : Nat) (text : List Char) : Option (Char × List Char) := do
  guard (digits ≤ text.length)
  let code ← Numeral.value? 16 (text.take digits)
  guard code.isValidChar
  return (Char.ofNat code, text.drop digits)

/-- A key up to its closing double quote, and what follows it. Of the escapes, those by code point
can occur in a known key. -/
def doubleQuoted? : Nat → List Char → Option (List Char × List Char)
  | 0, _ => none
  | _ + 1, [] => none
  | _ + 1, '"' :: rest => some ([], rest)
  | fuel + 1, '\\' :: 'u' :: rest => do
      let (c, rest) ← codePoint? 4 rest
      let (key, rest) ← doubleQuoted? fuel rest
      return (c :: key, rest)
  | fuel + 1, '\\' :: 'U' :: rest => do
      let (c, rest) ← codePoint? 8 rest
      let (key, rest) ← doubleQuoted? fuel rest
      return (c :: key, rest)
  | _ + 1, '\\' :: _ => none
  | fuel + 1, c :: rest => do
      let (key, rest) ← doubleQuoted? fuel rest
      return (c :: key, rest)

/-- A key and what follows it. -/
def key? (text : List Char) : Option (List Char × List Char) :=
  match text with
  | '"' :: rest => doubleQuoted? text.length rest
  | '\'' :: rest =>
      match rest.dropWhile (· != '\'') with
      | _ :: after => some (rest.takeWhile (· != '\''), after)
      | [] => none
  | _ => some (text.takeWhile isBareKeyChar, text.dropWhile isBareKeyChar)

/-! ## 3. Values -/

/-- What a setting is given. -/
inductive Value where
  | number (n : Nat)
  | truth (b : Bool)
  deriving DecidableEq, Repr

/-- The groups of digits between underscores. -/
def groups : List Char → List (List Char)
  | [] => [[]]
  | '_' :: rest => [] :: groups rest
  | c :: rest =>
      match groups rest with
      | group :: more => (c :: group) :: more
      | [] => [[c]]

/-- A number in the given base, whose digits may be set off by single underscores. -/
def grouped? (base : Nat) (text : List Char) : Option Nat :=
  if (groups text).any (·.isEmpty) then none else Numeral.value? base (groups text).flatten

/-- A decimal number, which starts with no needless zero. -/
def decimal? (text : List Char) : Option Nat :=
  match text with
  | '0' :: _ :: _ => none
  | _ => grouped? 10 text

/-- A whole number that is not negative. The base may be marked, the sign of a decimal written. -/
def whole? (text : List Char) : Option Nat :=
  match text with
  | '0' :: 'x' :: digits => grouped? 16 digits
  | '0' :: 'o' :: digits => grouped? 8 digits
  | '0' :: 'b' :: digits => grouped? 2 digits
  | '+' :: digits => decimal? digits
  | '-' :: digits => (decimal? digits).filter (· == 0)
  | digits => decimal? digits

/-- The value a word stands for. Whole numbers have at most 63 bits. -/
def value? (text : List Char) : Option Value :=
  if text = "true".toList then some (.truth true)
  else if text = "false".toList then some (.truth false)
  else ((whole? text).filter (· < 0x8000000000000000)).map .number

/-! ## 4. Documents -/

/-- What a line says: nothing, or a value for a key. -/
inductive Line where
  | silent
  | entry (key : String) (value : Value)
  deriving DecidableEq, Repr

/-- What a line says, if it is well-formed. -/
def line? (text : List Char) : Option Line := do
  if isSilent text then
    return .silent
  else
    let (key, rest) ← key? (text.dropWhile isSpace)
    match rest.dropWhile isSpace with
    | '=' :: rest =>
        let rest := rest.dropWhile isSpace
        let isWordChar := fun c => !isSpace c && c != '#'
        let value ← value? (rest.takeWhile isWordChar)
        guard (isSilent (rest.dropWhile isWordChar))
        return .entry (String.ofList key) value
    | _ => none

/-- The settings with a known key given a value of its type. -/
def assign? (s : Settings) (key : String) (value : Value) : Option Settings :=
  match value with
  | .number n =>
      if key = "max_instructions" then some { s with maxInstructions := some n }
      else if key = "random_seed" then some { s with randomSeed := some n }
      else if key = "stack_limit" then some { s with stackLimit := n }
      else none
  | .truth b => if key = "trace" then some { s with trace := b } else none

/-- The settings of the lines of a document; no key may be given twice. -/
def readLines? (s : Settings) (known : List String) : List (List Char) → Option Settings
  | [] => some s
  | text :: rest =>
      match line? text with
      | none => none
      | some .silent => readLines? s known rest
      | some (.entry key value) =>
          if known.contains key then none
          else do readLines? (← assign? s key value) (key :: known) rest

/-- The settings of a document, which may start with a byte order mark. -/
def read? (document : String) : Option Settings :=
  match document.toList with
  | '\ufeff' :: text => readLines? {} [] (lines text)
  | text => readLines? {} [] (lines text)

/-- The settings of a document. -/
def read (document : String) : Except Fault Settings :=
  match read? document with
  | some s => .ok s
  | none => .error (.settings .malformed)

end ZMachine.SettingsFile
