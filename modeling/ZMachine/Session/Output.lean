import ZMachine.Session.Basic

/-!
# Output streams

Text goes to the innermost open table in memory if there is one, and else to the sink if that is
selected.

* `Session.writeOutput` : sends a text where it goes.
* `Session.openTable`, `closeTable` : tables in memory; closing one writes down its length.
-/

namespace ZMachine.Session

variable {H : Host}

/-- Puts a character in the innermost open table, at the end of what it has received. -/
def captureChar (c : Char) : Exec H Unit := do
  match (← get).streams.tables with
  | [] => return ()
  | table :: outer =>
      let addr := table.addr + 2 + table.written.toNat
      onMachine (Machine.writeByte addr (Zscii.ofChar c).toUInt8)
      modify fun s =>
        { s with streams.tables := { table with written := table.written + 1 } :: outer }

/-- Puts the characters in the innermost open table, one after the other. -/
def captureChars : List Char → Exec H Unit
  | [] => return ()
  | c :: rest => do
      captureChar c
      captureChars rest

/-- Sends a text where it goes. -/
def writeOutput (text : String) : Exec H Unit := do
  let streams := (← get).streams
  if streams.tables.isEmpty then
    if streams.sink then onSink (Sink.write text) else return ()
  else
    captureChars text.toList

/-- Selects the sink or turns away from it. -/
def selectSink (selected : Bool) : Exec H Unit :=
  modify fun s => { s with streams.sink := selected }

/-- Opens a table, which must have room for its length. -/
def openTable (addr : Nat) : Exec H Unit := do
  let _ ← (← memory).readWord addr
  modify fun s => { s with streams.tables := { addr, written := 0 } :: s.streams.tables }

/-- Closes the innermost open table and writes down how many characters it received. -/
def closeTable : Exec H Unit := do
  match (← get).streams.tables with
  | [] => return ()
  | table :: outer =>
      modify fun s => { s with streams.tables := outer }
      onMachine (Machine.writeWord table.addr table.written)

/-- Passes on what the sink holds. -/
def flush : Exec H Unit :=
  onSink Sink.flush

end ZMachine.Session
