import ZMachine.Channel.Input
import ZMachine.Channel.Sink
import ZMachine.Host.Basic
import ZMachine.Machine.Setup
import ZMachine.Random.Basic
import ZMachine.Screen
import ZMachine.Settings.Basic

/-!
# Sessions

A session is a machine together with everything around it: the story as loaded, the input source and
the output sink, the host's helpers, the screen, random numbers, saved states, and the settings.

* `Session`                     : the state.
* `Exec`                        : a computation on a session that may fail.
* `Session.onMachine` and its like : computations on a part of the session.
* `Session.load`                : the session of a story image.
-/

namespace ZMachine

/-! ## 1. State -/

/-- Whether a run goes on. -/
inductive RunState where
  | running
  /-- Stopped by the story, or by the end of input. -/
  | quit
  /-- Stopped by a fault. -/
  | failed
  deriving DecidableEq, Repr

/-- Whether the run is over. -/
def RunState.isFinished : RunState → Bool
  | .running => false
  | .quit | .failed => true

/-- A table in memory that receives text: a word for the length, then the characters. -/
structure StreamTable where
  addr : Nat
  /-- How many characters it has received. -/
  written : Word
  deriving DecidableEq, Repr

/-- Where text goes. -/
structure Streams where
  /-- Whether the sink is selected. -/
  sink : Bool := true
  /-- The open tables, the one that receives text first. -/
  tables : List StreamTable := []
  deriving DecidableEq, Repr

/-- A machine and everything around it. -/
structure Session (H : Host) where
  machine : Machine
  /-- The story as loaded. -/
  story : Array UInt8
  input : Input
  sink : Sink
  decoder : TextDecoder
  objects : Option H.Objects
  lexer : Option H.Lexer
  saves : Option SaveStore
  screen : Screen
  random : Random
  /-- The address of the instruction being executed. -/
  currentPc : Nat
  /-- The state to go back to when a move is taken back. -/
  undo : Option Snapshot
  streams : Streams
  state : RunState
  /-- How many instructions have been executed. -/
  instructionCount : Nat
  settings : Settings
  /-- The listing of executed instructions, the last first. -/
  trace : List String

/-- A computation on a session that may fail. -/
abbrev Exec (H : Host) := Action (Session H)

namespace Session

variable {H : Host} {α : Type}

/-! ## 2. Parts of a session -/

/-- A computation on the machine. The session lets go of the machine meanwhile, so that memory can
be changed in place. -/
def onMachine (action : Action Machine α) : Exec H α := fun s =>
  let rest := { s with machine := default }
  match action s.machine with
  | .ok a machine => .ok a { rest with machine }
  | .error e machine => .error e { rest with machine }

/-- A computation on the input source. -/
def onInput (action : Action Input α) : Exec H α := fun s =>
  match action s.input with
  | .ok a input => .ok a { s with input }
  | .error e input => .error e { s with input }

/-- A computation on the output sink. -/
def onSink (action : Action Sink α) : Exec H α := fun s =>
  match action s.sink with
  | .ok a sink => .ok a { s with sink }
  | .error e sink => .error e { s with sink }

/-- The host's objects, which an instruction needs. -/
def theObjects : Exec H H.Objects := do
  match (← get).objects with
  | some objects => return objects
  | none => throw (.missingCapability .objectModel)

/-- A question to the object model. -/
def askObjects (question : H.Objects → Memory → Except Fault α) : Exec H α := do
  let objects ← theObjects
  question objects (← get).machine.memory

/-- A change made by the object model. -/
def onObjects (action : Action (H.Objects × Memory) α) : Exec H α := do
  let objects ← theObjects
  fun s =>
    match action (objects, s.machine.memory) with
    | .ok a (objects, memory) =>
        .ok a { s with objects := some objects, machine := { s.machine with memory } }
    | .error e (objects, memory) =>
        .error e { s with objects := some objects, machine := { s.machine with memory } }

/-- The host's tokenizer, which an instruction needs. -/
def theLexer : Exec H H.Lexer := do
  match (← get).lexer with
  | some lexer => return lexer
  | none => throw (.missingCapability .tokenizer)

/-- A change made by the tokenizer. -/
def onLexer (action : Action (H.Lexer × Memory) α) : Exec H α := do
  let lexer ← theLexer
  fun s =>
    match action (lexer, s.machine.memory) with
    | .ok a (lexer, memory) =>
        .ok a { s with lexer := some lexer, machine := { s.machine with memory } }
    | .error e (lexer, memory) =>
        .error e { s with lexer := some lexer, machine := { s.machine with memory } }

/-- A change of the screen. -/
def onScreen (change : Screen → Screen) : Exec H Unit :=
  modify fun s => { s with screen := change s.screen }

/-- The machine's memory. -/
def memory : Exec H Memory :=
  return (← get).machine.memory

/-- The text of the encoded string at an address. -/
def decodeText (addr : Nat) : Exec H String := do
  let s ← get
  let (text, _) ← s.decoder s.machine.memory addr
  return text

/-! ## 3. Loading -/

/-- The session of a story image: the machine at its entry point with the interpreter's header
fields filled in, the standard text decoder, no objects, no tokenizer and no place for saved games.
`entropy` is the host's seed for random numbers. -/
def load (image : Array UInt8) (input : Input) (sink : Sink) (entropy : UInt64) :
    Except Fault (Session H) := do
  let machine ← Machine.load image
  match Machine.configureHeader machine with
  | .error e _ => .error e
  | .ok () machine =>
      return {
        machine
        story := image
        input
        sink
        decoder := ZString.decode
        objects := none
        lexer := none
        saves := none
        screen := {}
        random := Random.uniform entropy
        currentPc := 0
        undo := none
        streams := {}
        state := .running
        instructionCount := 0
        settings := {}
        trace := [] }

/-- The session with the given settings. -/
def withSettings (s : Session H) (settings : Settings) : Session H :=
  { s with
    machine := { s.machine with stackLimit := settings.stackLimit }
    random := match settings.randomSeed with
      | some seed => Random.predictable (UInt64.ofNat seed) s.random.entropy
      | none => s.random
    settings }

end Session

end ZMachine
