import ZMachine.Fault

/-!
# The output sink

Where text goes that no table in memory receives. A sink may have room for a limited number of bytes
and may fail to pass on what it holds.
-/

namespace ZMachine

/-- An output sink. -/
structure Sink where
  /-- The bytes received. -/
  written : ByteArray := ByteArray.empty
  /-- How many bytes it takes in all, if that is limited. -/
  capacity : Option Nat := none
  /-- Whether passing on what it holds fails. -/
  flushFails : Bool := false

namespace Sink

/-- How many of `size` bytes the sink still takes. -/
def accepted (sink : Sink) (size : Nat) : Nat :=
  match sink.capacity with
  | none => size
  | some capacity => min size (capacity - sink.written.size)

/-- Sends a text. A sink that is full keeps what fitted and fails. -/
def write (text : String) : Action Sink Unit := do
  let bytes := text.toUTF8
  let taken := (← get).accepted bytes.size
  modify fun sink => { sink with written := sink.written ++ bytes.extract 0 taken }
  if taken < bytes.size then
    throw (.channel .closed)

/-- Passes on what the sink holds. -/
def flush : Action Sink Unit := do
  if (← get).flushFails then
    throw (.channel .flushFailed)

end Sink

end ZMachine
