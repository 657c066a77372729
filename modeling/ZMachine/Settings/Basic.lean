import ZMachine.Fault
import ZMachine.Machine.Basic
import ZMachine.Text.Blank

/-!
# Settings

How a story is run: when to stop, where random numbers come from, how large the stack may grow, and
whether every instruction is listed. Variables of the environment override what a file says.

* `Settings`           : the settings, with their defaults.
* `Settings.override`  : the settings changed by named values.
-/

namespace ZMachine

/-- How a story is run. -/
structure Settings where
  /-- The run stops after so many instructions. -/
  maxInstructions : Option Nat := none
  /-- The seed of a predictable row of random numbers. -/
  randomSeed : Option Nat := none
  /-- How many values the stack may hold. -/
  stackLimit : Nat := Machine.defaultStackLimit
  /-- Whether every instruction is listed. -/
  trace : Bool := false
  deriving DecidableEq, Repr

namespace Settings

/-- Reads a number of at most 64 bits. -/
def number? (text : List Char) : Option Nat :=
  (Numeral.natural? text).filter (· < 0x10000000000000000)

/-- Reads the number given under a name, blanks around it aside. -/
def namedNumber (name value : String) : Except Fault Nat :=
  match number? (Text.trimmed value.toList) with
  | some n => .ok n
  | none => .error (.settings (.notNumber name value))

/-- The words that turn a setting on. -/
def onWords : List String := ["1", "true", "yes", "on"]

/-- Whether the value turns a setting on, blanks around it aside. -/
def isOn (value : String) : Bool :=
  onWords.contains (String.ofList (Text.trimmed value.toList))

/-- The number given under a name, or else the one in force. -/
def overriding (lookup : String → Option String) (name : String) : Except Fault (Option Nat) :=
  match lookup name with
  | none => .ok none
  | some value => some <$> namedNumber name value

/-- The variables of the environment that override settings. -/
def variableNames : List String :=
  ["STONY_MAX_INSTRUCTIONS", "STONY_RANDOM_SEED", "STONY_STACK_LIMIT", "STONY_TRACE"]

/-- The settings changed by the values given under the names of the environment. -/
def override (s : Settings) (lookup : String → Option String) : Except Fault Settings := do
  let maxInstructions ← overriding lookup "STONY_MAX_INSTRUCTIONS"
  let randomSeed ← overriding lookup "STONY_RANDOM_SEED"
  let stackLimit ← overriding lookup "STONY_STACK_LIMIT"
  return {
    maxInstructions := maxInstructions.or s.maxInstructions
    randomSeed := randomSeed.or s.randomSeed
    stackLimit := stackLimit.getD s.stackLimit
    trace := ((lookup "STONY_TRACE").map isOn).getD s.trace }

end Settings

end ZMachine
