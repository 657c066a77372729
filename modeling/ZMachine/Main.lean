import ZMachine.CommandLine

/-!
# The program

The outer layer: it reads files, the environment and the player's lines, and writes what a session
sends to its sink. Everything it decides stands in `ZMachine.CommandLine` and `ZMachine.Session`.
-/

namespace ZMachine

/-- Reads a file, or says why it cannot be read. -/
def tryRead (path : String) : IO CommandLine.FileRead := do
  try
    return .contents (← IO.FS.readBinFile path)
  catch e =>
    match e with
    | .noFileOrDirectory .. => return .absent
    | .permissionDenied .. => return .denied
    | .inappropriateType .. => return .directory
    | e => return .unreadable e.toString

/-- Reads one line of the player; at the end of input there is none. -/
def readPlayerLine (stdin : IO.FS.Stream) : IO (Option (Option (List Char))) := do
  try
    let line ← stdin.getLine
    return if line.isEmpty then none else some (some line.toList)
  catch _ =>
    return some none

/-- Writes what the sink has received since `shown` bytes, and gives the new number. -/
def showOutput (stdout : IO.FS.Stream) (sink : Sink) (shown : Nat) : IO Nat := do
  if shown < sink.written.size then
    stdout.write (sink.written.extract shown sink.written.size)
    stdout.flush
  return sink.written.size

/-- Plays a session step by step, with at most `left` steps if that is limited. -/
partial def play (stdin stdout : IO.FS.Stream) (s : Session Host.standard) (left : Option Nat)
    (shown : Nat) : IO UInt32 := do
  if s.state.isFinished || left == some 0 then
    return 0
  else
    let line ← if s.awaitsInput then readPlayerLine stdin else pure none
    let input := match line with
      | some line => s.input.feed line
      | none => s.input
    match Session.step { s with input } with
    | .ok _ s =>
        let shown ← showOutput stdout s.sink shown
        play stdin stdout s (left.map (· - 1)) shown
    | .error fault s =>
        let _ ← showOutput stdout s.sink shown
        (← IO.getStderr).putStr (CommandLine.faultReport fault)
        return 1

/-- Writes a report and gives its exit code. -/
def showReport (report : CommandLine.Report) : IO UInt32 := do
  (← IO.getStderr).putStr report.errors
  (← IO.getStdout).write report.output
  return UInt32.ofNat report.exitCode

/-- A seed from the host's entropy. -/
def drawEntropy : IO UInt64 := do
  let bytes ← IO.getRandomBytes 8
  return bytes.data.foldl (fun n b => n * 256 + b.toUInt64) 0

/-- The program of the given name with the given arguments. -/
def runProgram (program : String) (args : List String) : IO UInt32 := do
  match CommandLine.parse program args with
  | .error report => showReport report
  | .ok options =>
      let settingsRead ← match options.settingsFile with
        | some path => tryRead path
        | none => pure .absent
      let values ← Settings.variableNames.mapM fun name => IO.getEnv name
      let variableOf := fun name => ((Settings.variableNames.zip values).lookup name).join
      let storyRead ← tryRead options.story
      let prepared := do
        let settings ← CommandLine.settings options (fun _ => settingsRead) variableOf
        let image ← CommandLine.storyImage options.story storyRead
        return (settings, image)
      match prepared with
      | .error report => showReport report
      | .ok (settings, image) =>
          match CommandLine.session image settings (Input.ofText []) (← drawEntropy) with
          | .error report => showReport report
          | .ok session =>
              play (← IO.getStdin) (← IO.getStdout) session settings.maxInstructions 0

end ZMachine

/-- The entry point. -/
def main (args : List String) : IO UInt32 :=
  ZMachine.runProgram "stony" args
