import ZMachine.Instruction.Form
import ZMachine.Text.Quoted

/-!
# Faults

Everything that can end a run, as a cause, and its wording in one place.

* `Fault`         : the causes. No fault is ever retried or undone; what an instruction did before
  it failed stays done.
* `Fault.kind`    : the part of the machine that gave up.
* `Fault.message` : the sentence for the player.
* `Fault.report`  : the form with field names, for a report on the machine itself.
* `Action`        : a computation on a state that may fail and keeps the state it failed in.
-/

namespace ZMachine

/-! ## 1. Causes -/

/-- A header field that only later story versions have. -/
inductive HeaderField where
  | fileLength
  | checksum
  | routinesOffset
  | stringsOffset
  deriving DecidableEq, Repr

/-- A helper outside the machine that an instruction relies on. -/
inductive Capability where
  | objectModel
  | tokenizer
  deriving DecidableEq, Repr

/-- Why something the machine works with refused: text, saved games, objects, the host. -/
inductive Refusal where
  /-- Two memories that should be compared have different sizes. -/
  | sizesDiffer (current story : Nat)
  /-- A run of unchanged bytes stops before its length. -/
  | incompleteRun
  /-- A run of unchanged bytes is longer than what is left of memory. -/
  | runBeyondMemory
  /-- A changed byte stands where memory has ended. -/
  | dataBeyondMemory
  /-- A string does not end within the allowed length. -/
  | unterminatedString (addr : Nat)
  /-- Abbreviations nest too deeply. -/
  | abbreviationTooDeep (addr : Nat)
  /-- A property is written that the object lacks. -/
  | noProperty (object property : UInt16)
  /-- The object has no short name. -/
  | noName (object : UInt16)
  /-- No dictionary to look words up in. -/
  | noDictionary
  /-- The saved game could not be written. -/
  | storeFull
  /-- The saved game could not be read. -/
  | storeGone
  deriving DecidableEq, Repr

/-- What is wrong with the settings. -/
inductive SettingsFault where
  /-- The value given under a name is no number of the right size. -/
  | notNumber (name value : String)
  /-- The settings file is not in the settings language. -/
  | malformed
  /-- The settings file cannot be read, for the reason given. -/
  | unreadable (path reason : String)
  deriving DecidableEq, Repr

/-- A failure of the input source or the output sink. -/
inductive ChannelFault where
  /-- A line of input is not text. -/
  | notText
  /-- The sink takes no more bytes. -/
  | closed
  /-- The sink could not pass on what it holds. -/
  | flushFailed
  deriving DecidableEq, Repr

/-- A look-up that the code before it should have made safe. -/
inductive Defect where
  | alphabet
  | localSlot
  | operands
  | story
  deriving DecidableEq, Repr

/-- Why a computation of the machine failed. -/
inductive Fault where
  | unknownVersion (version : UInt8)
  | unsupportedVersion (field : HeaderField) (minimum version : UInt8)
  | imageTooSmall (size : Nat)
  | unknownOpcode (opcode : UInt8) (form : Form) (count : OperandCount)
  | addressOutOfRange (addr size : Nat)
  | invalidVariable (var : UInt16)
  | noSuchLocal (var : UInt8) (available : Nat)
  | stackUnderflow
  | stackOverflow (limit : Nat)
  | returnWithoutCaller
  | invalidRoutine (addr : Nat) (locals : UInt8)
  | divisionByZero
  | missingOperand (name : String) (index : Nat)
  | missingCapability (capability : Capability)
  | refused (refusal : Refusal)
  | settings (fault : SettingsFault)
  | halted
  | channel (fault : ChannelFault)
  | defect (site : Defect)
  deriving DecidableEq, Repr

/-- The part of the machine a fault belongs to. -/
inductive FaultKind where
  | format
  | decode
  | addressing
  | arithmetic
  | channel
  | capability
  | settings
  deriving DecidableEq, Repr

/-- The part of the machine that gave up. -/
def Fault.kind : Fault → FaultKind
  | .unknownVersion _ | .unsupportedVersion .. | .imageTooSmall _ => .format
  | .unknownOpcode .. | .missingOperand .. => .decode
  | .addressOutOfRange .. | .invalidVariable _ | .noSuchLocal .. | .stackUnderflow
  | .stackOverflow _ | .returnWithoutCaller | .invalidRoutine .. | .defect _ => .addressing
  | .divisionByZero => .arithmetic
  | .channel _ => .channel
  | .missingCapability _ | .refused _ | .halted => .capability
  | .settings _ => .settings

/-! ## 2. Wording -/

/-- The name of a header field in messages. -/
def HeaderField.name : HeaderField → String
  | .fileLength => "file length"
  | .checksum => "checksum"
  | .routinesOffset => "routines offset"
  | .stringsOffset => "static strings offset"

/-- The name of a capability in messages. -/
def Capability.name : Capability → String
  | .objectModel => "object model"
  | .tokenizer => "tokenizer"

/-- The sentence for a refusal. -/
def Refusal.message : Refusal → String
  | .sizesDiffer current story =>
      "memory sizes differ: " ++ Numeral.decimal 0 current ++ " vs " ++ Numeral.decimal 0 story
  | .incompleteRun => "incomplete RLE sequence"
  | .runBeyondMemory => "RLE run extends beyond memory"
  | .dataBeyondMemory => "compressed data extends beyond memory"
  | .unterminatedString addr => "unterminated string at " ++ Numeral.hex 5 addr
  | .abbreviationTooDeep addr => "abbreviation recursion too deep at " ++ Numeral.hex 5 addr
  | .noProperty object property =>
      "object " ++ Numeral.decimal 0 object.toNat ++ " has no property " ++
        Numeral.decimal 0 property.toNat
  | .noName object => "object " ++ Numeral.decimal 0 object.toNat ++ " has no name"
  | .noDictionary => "no dictionary"
  | .storeFull => "disk full"
  | .storeGone => "disk gone"

/-- The sentence for a fault of the settings. -/
def SettingsFault.message : SettingsFault → String
  | .notNumber name value => name ++ " is not a valid number: " ++ Text.quoted value
  | .malformed => "not a settings file"
  | .unreadable path reason => path ++ ": " ++ reason

/-- The sentence for a fault of a channel. -/
def ChannelFault.message : ChannelFault → String
  | .notText => "stream did not contain valid UTF-8"
  | .closed => "closed"
  | .flushFailed => "flush failed"

/-- The name of a defect in messages. -/
def Defect.name : Defect → String
  | .alphabet => "alphabet"
  | .localSlot => "local slot"
  | .operands => "operands"
  | .story => "story"

/-- The sentence for a fault. -/
def Fault.message : Fault → String
  | .unknownVersion version => "Unknown story file version: " ++ Numeral.decimal 0 version.toNat
  | .unsupportedVersion field minimum version =>
      field.name ++ " requires version " ++ Numeral.decimal 0 minimum.toNat ++
        " or later (story is version " ++ Numeral.decimal 0 version.toNat ++ ")"
  | .imageTooSmall size =>
      "Story file too small for header: " ++ Numeral.decimal 0 size ++ " bytes"
  | .unknownOpcode opcode form count =>
      "Unknown opcode " ++ Numeral.hexMark 4 opcode.toNat ++ " (" ++ count.name ++ ", " ++
        form.name ++ " form)"
  | .addressOutOfRange addr size =>
      "Memory address out of range: " ++ Numeral.hexMark 6 addr ++ " (memory size " ++
        Numeral.hexMark 6 size ++ ")"
  | .invalidVariable var => "Invalid variable number: " ++ Numeral.hexMark 0 var.toNat
  | .noSuchLocal var available =>
      "Local variable L" ++ Numeral.decimal 2 var.toNat ++ " not available (routine has " ++
        Numeral.decimal 0 available ++ " locals)"
  | .stackUnderflow => "Stack underflow"
  | .stackOverflow limit => "Stack overflow (limit " ++ Numeral.decimal 0 limit ++ ")"
  | .returnWithoutCaller => "Return with no calling routine"
  | .invalidRoutine addr locals =>
      "Invalid routine at " ++ Numeral.hexMark 6 addr ++ ": header declares " ++
        Numeral.decimal 0 locals.toNat ++ " locals"
  | .divisionByZero => "Division by zero"
  | .missingOperand name index => name ++ " is missing operand " ++ Numeral.decimal 0 index
  | .missingCapability capability => "No " ++ capability.name ++ " available"
  | .refused refusal => refusal.message
  | .settings fault => "Configuration error: " ++ fault.message
  | .halted => "Interpreter has already halted"
  | .channel fault => "I/O error: " ++ fault.message
  | .defect site => "Internal check failed: " ++ site.name

/-- A report of a cause with named fields. -/
def reportFields (cause : String) (fields : List (String × String)) : String :=
  cause ++ " \x7b " ++ ", ".intercalate (fields.map fun field => field.1 ++ ": " ++ field.2) ++ " \x7d"

/-- A report of a cause with one unnamed field. -/
def reportField (cause field : String) : String :=
  cause ++ "(" ++ field ++ ")"

/-- The fault by its cause and fields. -/
def Fault.report : Fault → String
  | .unknownVersion version => reportField "UnknownVersion" (Numeral.decimal 0 version.toNat)
  | .unsupportedVersion field minimum version =>
      reportFields "UnsupportedVersion"
        [("feature", Text.quoted field.name), ("minimum", Numeral.decimal 0 minimum.toNat),
          ("version", Numeral.decimal 0 version.toNat)]
  | .imageTooSmall size => reportField "ImageTooSmall" (Numeral.decimal 0 size)
  | .unknownOpcode opcode form count =>
      reportFields "UnknownOpcode"
        [("opcode", Numeral.decimal 0 opcode.toNat), ("form", form.name), ("count", count.name)]
  | .addressOutOfRange addr size =>
      reportFields "AddressOutOfRange"
        [("addr", Numeral.decimal 0 addr), ("len", Numeral.decimal 0 size)]
  | .invalidVariable var => reportField "InvalidVariable" (Numeral.decimal 0 var.toNat)
  | .noSuchLocal var available =>
      reportFields "NoSuchLocal"
        [("var", Numeral.decimal 0 var.toNat), ("available", Numeral.decimal 0 available)]
  | .stackUnderflow => "StackUnderflow"
  | .stackOverflow limit => reportField "StackOverflow" (Numeral.decimal 0 limit)
  | .returnWithoutCaller => "ReturnWithoutCaller"
  | .invalidRoutine addr locals =>
      reportFields "InvalidRoutine"
        [("addr", Numeral.decimal 0 addr), ("locals", Numeral.decimal 0 locals.toNat)]
  | .divisionByZero => "DivisionByZero"
  | .missingOperand name index =>
      reportFields "MissingOperand"
        [("name", Text.quoted name), ("index", Numeral.decimal 0 index)]
  | .missingCapability capability => reportField "MissingCapability" (Text.quoted capability.name)
  | .refused refusal => reportField "Collaborator" (Text.quoted refusal.message)
  | .settings fault => reportField "Config" (Text.quoted fault.message)
  | .halted => "Halted"
  | .channel fault => reportField "Io" (Text.quoted fault.message)
  | .defect site => reportField "Internal" (Text.quoted site.name)

/-! ## 3. Computations that may fail -/

/-- A computation on a state that may fail. A failure keeps the state reached. -/
abbrev Action (σ : Type) := EStateM Fault σ

/-- A computation without a state, as one that leaves the state alone. -/
def Action.ofExcept {σ α : Type} (x : Except Fault α) : Action σ α := fun s =>
  match x with
  | .ok a => .ok a s
  | .error e => .error e s

instance {σ : Type} : MonadLift (Except Fault) (EStateM Fault σ) where
  monadLift := Action.ofExcept

end ZMachine
