import ZMachine.Operation.Arithmetic
import ZMachine.Operation.Basic
import ZMachine.Operation.Objects
import ZMachine.Operation.Reading
import ZMachine.Operation.Routines
import ZMachine.Operation.Saving
import ZMachine.Operation.Tables
import ZMachine.Text.SmallLetters

/-!
# Running a story

One instruction is decoded and executed at a time, until the story quits, fails, or a limit is
reached.

* `Operation.perform`    : carries an operation out.
* `Session.execute`      : executes a decoded instruction.
* `Session.step`         : decodes and executes the next one.
* `Session.runWithLimit` : so many steps at most.
-/

namespace ZMachine

variable {H : Host}

/-! ## 1. Operations -/

/-- Carries an operation out, for an instruction and the values of its operands. -/
def Operation.perform (op : Operation) (i : Instruction) (args : List Word) : Exec H Flow :=
  let onMachine := fun (handler : Instruction → List Word → Action Machine Flow) =>
    Session.onMachine (handler i args)
  match op with
  | .bitOr => onMachine Handler.bitOr
  | .bitAnd => onMachine Handler.bitAnd
  | .add => onMachine Handler.add
  | .sub => onMachine Handler.sub
  | .mul => onMachine Handler.mul
  | .div => onMachine Handler.div
  | .mod => onMachine Handler.mod
  | .bitNot => onMachine Handler.bitNot
  | .random => Handler.random i args
  | .logShift => onMachine Handler.logShift
  | .artShift => onMachine Handler.artShift
  | .je => onMachine Handler.je
  | .jl => onMachine Handler.jl
  | .jg => onMachine Handler.jg
  | .decChk => onMachine Handler.decChk
  | .incChk => onMachine Handler.incChk
  | .test => onMachine Handler.test
  | .jz => onMachine Handler.jz
  | .jump => onMachine Handler.jumpBy
  | .nop => onMachine Handler.nop
  | .quit => onMachine Handler.quit
  | .verify => Handler.verify i args
  | .piracy => onMachine Handler.piracy
  | .inc => onMachine Handler.inc
  | .dec => onMachine Handler.dec
  | .load => onMachine Handler.load
  | .store => onMachine Handler.store
  | .loadw => onMachine Handler.loadw
  | .loadb => onMachine Handler.loadb
  | .storew => onMachine Handler.storew
  | .storeb => onMachine Handler.storeb
  | .scanTable => onMachine Handler.scanTable
  | .copyTable => onMachine Handler.copyTable
  | .rtrue => onMachine Handler.rtrue
  | .rfalse => onMachine Handler.rfalse
  | .retPopped => onMachine Handler.retPopped
  | .dropTop => onMachine Handler.dropTop
  | .catchFrame => onMachine Handler.catchFrame
  | .call => onMachine Handler.callRoutine
  | .ret => onMachine Handler.retValue
  | .throwTo => onMachine Handler.throwTo
  | .push => onMachine Handler.pushValue
  | .pull => onMachine Handler.pull
  | .checkArgCount => onMachine Handler.checkArgCount
  | .print => Handler.print i args
  | .printRet => Handler.printRet i args
  | .newLine => Handler.newLine i args
  | .printAddr => Handler.printAddr i args
  | .printPaddr => Handler.printPaddr i args
  | .printChar => Handler.printChar i args
  | .printNum => Handler.printNum i args
  | .printTable => Handler.printTable i args
  | .printUnicode => Handler.printUnicode i args
  | .checkUnicode => Handler.checkUnicode i args
  | .outputStream => Handler.outputStream i args
  | .sread => Handler.sread Text.smallLetters i args
  | .aread => Handler.aread Text.smallLetters i args
  | .readChar => Handler.readCharacter i args
  | .inputStream => Handler.inputStream i args
  | .tokenise => Handler.tokeniseBuffer i args
  | .getSibling => Handler.getSibling i args
  | .getChild => Handler.getChild i args
  | .getParent => Handler.getParent i args
  | .getPropLen => Handler.getPropLen i args
  | .removeObj => Handler.removeObj i args
  | .printObj => Handler.printObj i args
  | .jin => Handler.jin i args
  | .testAttr => Handler.testAttr i args
  | .setAttr => Handler.setAttr i args
  | .clearAttr => Handler.clearAttr i args
  | .insertObj => Handler.insertObj i args
  | .getProp => Handler.getProp i args
  | .getPropAddr => Handler.getPropAddr i args
  | .getNextProp => Handler.getNextProp i args
  | .putProp => Handler.putProp i args
  | .showStatus => Handler.showStatus i args
  | .setColour => Handler.setColour i args
  | .splitWindow => Handler.splitWindow i args
  | .setWindow => Handler.setWindow i args
  | .eraseWindow => Handler.eraseWindow i args
  | .eraseLine => Handler.eraseLine i args
  | .setCursor => Handler.setCursor i args
  | .getCursor => Handler.getCursor i args
  | .setTextStyle => Handler.setTextStyle i args
  | .bufferMode => Handler.bufferMode i args
  | .soundEffect => Handler.soundEffect i args
  | .setFont => Handler.setFont i args
  | .save => Handler.save i args
  | .restore => Handler.restore i args
  | .restart => Handler.restart i args
  | .saveUndo => Handler.saveUndo i args
  | .restoreUndo => Handler.restoreUndo i args

namespace Session

/-! ## 2. One instruction -/

/-- Executes a decoded instruction, behind which the program counter already stands. An opcode that
means nothing fails before any operand is taken. -/
def execute (i : Instruction) : Exec H Flow := do
  match Operation.standard.lookup i.opcode (← get).machine.version with
  | none => throw (.unknownOpcode i.opcode.number i.form i.opcode.count)
  | some op =>
      let args ← onMachine (Machine.resolve i.operands)
      op.perform i args

/-- The line of an instruction in the listing of a run. -/
def traceLine (pc : Nat) (i : Instruction) (version : UInt8) : String :=
  Numeral.hex 5 pc ++ ": " ++ i.listing version

/-- Notes that an instruction is about to be executed, and moves the program counter behind it. -/
def advance (s : Session H) (i : Instruction) : Session H :=
  let pc := s.machine.pc
  { s with
    machine := { s.machine with pc := pc + i.size }
    currentPc := pc
    instructionCount := s.instructionCount + 1
    trace := if s.settings.trace then traceLine pc i s.machine.version :: s.trace else s.trace }

/-- Decodes and executes the next instruction. -/
def executeNext : Exec H Flow := do
  let machine := (← get).machine
  let i ← Instruction.decode machine.memory machine.pc machine.version
  modify (·.advance i)
  execute i

/-- Decodes and executes the next instruction, unless the run is over. A fault ends the run, and so
does an instruction that stops the story; the sink then passes on what it holds. -/
def step : Exec H Flow := fun s =>
  if s.state.isFinished then
    .error .halted s
  else
    match executeNext s with
    | .ok .quit s => (do flush; return .quit : Exec H Flow) { s with state := .quit }
    | .ok flow s => .ok flow s
    | .error e s => .error e { s with state := .failed }

/-! ## 3. Runs -/

/-- Steps until the run is over, at most so many. -/
def steps : Nat → Exec H Unit
  | 0 => return ()
  | count + 1 => do
      if (← get).state.isFinished then
        return ()
      else
        let _ ← step
        steps count

/-- The number of steps that no run exceeds: steps are counted in 64 bits. -/
def maxSteps : Nat := 0x10000000000000000

/-- Runs until the story quits, fails, or has executed so many more instructions. -/
def runWithLimit (limit : Option Nat) : Exec H Unit := do
  steps (limit.getD maxSteps)
  flush

/-- Whether the next instruction will ask the source for a line that has not been fed to it. -/
def awaitsInput (s : Session H) : Bool :=
  let machine := s.machine
  match Instruction.decode machine.memory machine.pc machine.version with
  | .error _ => false
  | .ok i =>
      s.input.lines.isEmpty &&
        match Operation.standard.lookup i.opcode machine.version with
        | some .sread | some .aread => !s.input.pending.contains '\n'
        | some .readChar => s.input.pending.isEmpty
        | _ => false

/-- Runs as the settings say. -/
def run : Exec H Unit := do
  runWithLimit (← get).settings.maxInstructions

end Session

end ZMachine
