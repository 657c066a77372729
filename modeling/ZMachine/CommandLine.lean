import ZMachine.Session.Run
import ZMachine.Settings.File

/-!
# The command line

A story file is named first, options follow. Settings come from a file, then from the environment,
then from the options, each overriding what came before.

* `CommandLine.parse`    : the options of a row of arguments.
* `CommandLine.settings` : the settings they lead to.
* `CommandLine.session`  : the session of the story file.
* `CommandLine.perform`  : a whole run, in surroundings known beforehand.
-/

namespace ZMachine.CommandLine

/-! ## 1. Files and reports -/

/-- What became of an attempt to read a file. -/
inductive FileRead where
  | contents (bytes : ByteArray)
  | absent
  | denied
  | directory
  | unreadable (reason : String)

/-- How a run ended: the exit code, and what was written to the two outputs. -/
structure Report where
  exitCode : Nat
  output : ByteArray
  errors : String

/-- The report of a failure with nothing written to the standard output. -/
def Report.failure (exitCode : Nat) (errors : String) : Report :=
  { exitCode, output := ByteArray.empty, errors }

/-- The report of a run that could not be started, for the given cause. -/
def Report.refusal (cause : String) : Report :=
  Report.failure 1 ("Error: " ++ cause ++ "\n")

/-- How to use the program of the given name. -/
def usage (program : String) : String :=
  String.join [
    "stony - Z-Machine interpreter for story files, versions 1 to 8\n",
    "\n",
    "Usage: ", program, " <story_file> [--config FILE] [--seed N] [--limit N] [--trace]\n",
    "\n",
    "  --config FILE  read settings from a TOML file\n",
    "  --seed N       use a predictable random number sequence\n",
    "  --limit N      stop after N instructions\n",
    "  --trace        log every instruction at debug level\n",
    "\n",
    "Settings can also be given as STONY_MAX_INSTRUCTIONS, STONY_RANDOM_SEED,\n",
    "STONY_STACK_LIMIT and STONY_TRACE environment variables.\n"]

/-! ## 2. Options -/

/-- What the arguments ask for. -/
structure Options where
  story : String
  settingsFile : Option String := none
  seed : Option Nat := none
  limit : Option Nat := none
  trace : Bool := false

/-- The value behind an option, and the arguments after it. -/
def optionValue (option : String) : List String → Except Report (String × List String)
  | [] => .error (Report.refusal (Text.quoted (option ++ " needs a value")))
  | value :: rest => .ok (value, rest)

/-- The number an option is given. -/
def optionNumber (option value : String) : Except Report Nat :=
  match Settings.number? value.toList with
  | some n => .ok n
  | none => .error (Report.refusal (Text.quoted ("Invalid value for " ++ option ++ ": " ++ value)))

/-- Takes in the options, from left to right; a later one counts. -/
def parseOptions (program : String) : Nat → Options → List String → Except Report Options
  | 0, options, _ => .ok options
  | _ + 1, options, [] => .ok options
  | count + 1, options, option :: rest => do
      if option = "--config" then
        let (value, rest) ← optionValue option rest
        parseOptions program count { options with settingsFile := some value } rest
      else if option = "--seed" then
        let (value, rest) ← optionValue option rest
        let seed ← optionNumber option value
        parseOptions program count { options with seed := some seed } rest
      else if option = "--limit" then
        let (value, rest) ← optionValue option rest
        let limit ← optionNumber option value
        parseOptions program count { options with limit := some limit } rest
      else if option = "--trace" then
        parseOptions program count { options with trace := true } rest
      else
        .error {
          exitCode := 2
          output := (usage program).toUTF8
          errors := "Error: unknown option " ++ option ++ "\n" }

/-- The options of the arguments behind the program's name. -/
def parse (program : String) : List String → Except Report Options
  | [] => .error { exitCode := 0, output := (usage program).toUTF8, errors := "" }
  | story :: options => parseOptions program options.length { story } options

/-! ## 3. From options to a session -/

/-- The text of the settings file. -/
def settingsText (path : String) (read : FileRead) : Except Fault String :=
  let refuse := fun reason => .error (.settings (.unreadable path reason))
  match read with
  | .contents bytes =>
      match String.fromUTF8? bytes with
      | some text => .ok text
      | none => refuse "stream did not contain valid UTF-8"
  | .absent => refuse "No such file or directory (os error 2)"
  | .denied => refuse "Permission denied (os error 13)"
  | .directory => refuse "Is a directory (os error 21)"
  | .unreadable reason => refuse reason

/-- The settings of a settings file, if one is named. -/
def fileSettings (options : Options) (fileOf : String → FileRead) : Except Fault Settings :=
  match options.settingsFile with
  | none => .ok {}
  | some path => do SettingsFile.read (← settingsText path (fileOf path))

/-- The settings of file, environment and options. -/
def settings (options : Options) (fileOf : String → FileRead)
    (variableOf : String → Option String) : Except Report Settings := do
  let overridden := do (← fileSettings options fileOf).override variableOf
  match overridden with
  | .error fault => .error (Report.refusal fault.report)
  | .ok s =>
      return { s with
        randomSeed := options.seed.or s.randomSeed
        maxInstructions := options.limit.or s.maxInstructions
        trace := s.trace || options.trace }

/-- The bytes of the story file. -/
def storyImage (path : String) (read : FileRead) : Except Report (Array UInt8) :=
  match read with
  | .contents bytes => .ok bytes.data
  | .absent => .error (Report.refusal ("Story file not found: " ++ path))
  | .denied => .error (Report.refusal ("Permission denied reading story file: " ++ path))
  | .directory =>
      .error (Report.refusal
        ("Cannot read story file '" ++ path ++ "': Is a directory (os error 21)"))
  | .unreadable reason =>
      .error (Report.refusal ("Cannot open story file '" ++ path ++ "': " ++ reason))

/-- The session of a story image, with a place for one saved game. -/
def session (image : Array UInt8) (s : Settings) (input : Input) (entropy : UInt64) :
    Except Report (Session Host.standard) :=
  match Session.load image input {} entropy with
  | .error fault => .error (Report.refusal fault.report)
  | .ok session => .ok { session.withSettings s with saves := some (.slot none) }

/-! ## 4. Runs -/

/-- What is reported of a fault that ended a run. -/
def faultReport (fault : Fault) : String :=
  "\nError during execution: " ++ fault.message ++ "\n"

/-- Runs a session to its end. -/
def finish (s : Session Host.standard) : Report :=
  match Session.run s with
  | .ok () s => { exitCode := 0, output := s.sink.written, errors := "" }
  | .error fault s => { exitCode := 1, output := s.sink.written, errors := faultReport fault }

/-- What a run of the program depends on. -/
structure Surroundings where
  program : String
  fileOf : String → FileRead
  variableOf : String → Option String
  input : Input
  entropy : UInt64

/-- A run of the program up to the session, or to the report if there is none. -/
def prepare (around : Surroundings) (args : List String) :
    Except Report (Session Host.standard) := do
  let options ← parse around.program args
  let s ← settings options around.fileOf around.variableOf
  let image ← storyImage options.story (around.fileOf options.story)
  session image s around.input around.entropy

/-- A whole run of the program. -/
def perform (around : Surroundings) (args : List String) : Report :=
  match prepare around args with
  | .error report => report
  | .ok session => finish session

end ZMachine.CommandLine
