import ZMachine.Session.Basic

/-!
# Saving and restoring

Instructions that save the state of the machine, return to a saved state, take a move back, or start
the story again. A region of memory cannot be saved by itself: asked for that, save and restore
report that they failed.
-/

namespace ZMachine.Handler

open Session

variable {H : Host}

/-- Reports whether a save or restore succeeded. -/
def report (i : Instruction) (success : Bool) : Exec H Flow :=
  onMachine (Machine.reportOutcome i success (if success then 1 else 0))

/-- The snapshot of the machine, taken by the instruction being executed. -/
def takeSnapshot : Exec H Snapshot := do
  let s ← get
  Snapshot.capture s.machine s.story s.currentPc

/-- Returns to a snapshot. -/
def resumeFrom (snapshot : Snapshot) : Exec H Flow := do
  onMachine (Machine.resume snapshot (← get).story)

/-- Saves the state of the machine where the host keeps saved games. -/
def save (i : Instruction) (args : List Word) : Exec H Flow := do
  if args.isEmpty then
    let snapshot ← takeSnapshot
    match (← get).saves with
    | none => report i false
    | some store =>
        let (saved, store) ← store.save snapshot
        modify fun s => { s with saves := some store }
        report i saved
  else
    report i false

/-- Returns to the last saved state. -/
def restore (i : Instruction) (args : List Word) : Exec H Flow := do
  if args.isEmpty then
    match (← get).saves with
    | none => report i false
    | some store =>
        match ← store.restore with
        | none => report i false
        | some snapshot => resumeFrom snapshot
  else
    report i false

/-- Keeps the state of the machine for taking the next move back. -/
def saveUndo (i : Instruction) (_ : List Word) : Exec H Flow := do
  let snapshot ← takeSnapshot
  modify fun s => { s with undo := some snapshot }
  onMachine (Machine.deliver i 1)

/-- Takes a move back, or delivers 0 if no state was kept. -/
def restoreUndo (i : Instruction) (_ : List Word) : Exec H Flow := do
  match (← get).undo with
  | some snapshot => resumeFrom snapshot
  | none => onMachine (Machine.deliver i 0)

/-- Starts the story again. -/
def restart (_ : Instruction) (_ : List Word) : Exec H Flow := do
  onMachine (Machine.restart (← get).story)
  modify fun s => { s with streams := {} }
  return .next

end ZMachine.Handler
