import ZMachine.Operation.Printing
import ZMachine.Proofs.Session.Routing
import ZMachine.Proofs.Zscii

/-!
# Text that is captured and printed back

A text that a table in memory has received, in pieces of any size, is printed from there as it was.
Every character stands in the table as its code, one byte each, behind the word for their number;
printing that many bytes from there on turns each code back into its character.

* `Sink.Accepts`                 : a sink that takes so many bytes more.
* `Session.captureAll_of_room`   : a table that receives the pieces of a text.
* `Handler.printCells_of_codes`  : codes in a row that are printed.
* `Session.captured_text_prints_back` : both together.
-/

namespace ZMachine

open ZMachine.Action

/-! ## 1. Sinks with room -/

namespace Sink

variable {sink : Sink}

/-- The sink takes so many bytes more. -/
def Accepts (sink : Sink) (size : Nat) : Prop :=
  sink.accepted size = size

instance (sink : Sink) (size : Nat) : Decidable (sink.Accepts size) :=
  inferInstanceAs (Decidable (_ = _))

/-- It has room for a part of what it has room for, and for the rest behind that. -/
theorem Accepts.split {bytes : ByteArray} {size : Nat} (h : sink.Accepts (bytes.size + size)) :
    sink.Accepts bytes.size ∧ ({ sink with written := sink.written ++ bytes } : Sink).Accepts size := by
  unfold Accepts accepted at *
  cases hc : sink.capacity with
  | none => exact ⟨rfl, rfl⟩
  | some capacity =>
      rw [hc] at h
      dsimp only at h ⊢
      rw [ByteArray.size_append]
      omega

theorem write_of_accepts {text : String} (h : sink.Accepts text.toUTF8.size) :
    write text sink = .ok () { sink with written := sink.written ++ text.toUTF8 } := by
  have hfull : ¬ sink.accepted text.toUTF8.size < text.toUTF8.size := by
    rw [h]
    exact Nat.lt_irrefl _
  unfold write
  rw [get_bind, modify_bind, if_neg hfull, h, ByteArray.extract_zero_size]
  rfl

end Sink

namespace Session

variable {H : Host} {s t : Session H}

/-- The session whose sink has received a text. -/
def sending (s : Session H) (text : String) : Session H :=
  { s with sink := { s.sink with written := s.sink.written ++ text.toUTF8 } }

theorem sending_append (s : Session H) (text more : String) :
    (s.sending text).sending more = s.sending (text ++ more) := by
  have h : s.sink.written ++ text.toUTF8 ++ more.toUTF8 = s.sink.written ++ (text ++ more).toUTF8 := by
    rw [ByteArray.append_assoc]
    rfl
  unfold sending
  rw [h]

theorem sending_empty (s : Session H) : s.sending "" = s := by
  have h : s.sink.written ++ "".toUTF8 = s.sink.written := ByteArray.append_empty
  unfold sending
  rw [h]

/-- Without an open table a selected sink that has room receives the text. -/
theorem writeOutput_of_accepts {text : String} (htables : s.streams.tables = [])
    (hselected : s.streams.sink = true) (h : s.sink.Accepts text.toUTF8.size) :
    writeOutput text s = .ok () (s.sending text) := by
  unfold writeOutput
  rw [get_bind, htables, hselected, List.isEmpty_nil, if_pos rfl, if_pos rfl]
  unfold onSink
  rw [Sink.write_of_accepts h]
  rfl

/-! ## 2. Capturing -/

variable {c : Capture} {outer : List StreamTable}

theorem captureChar_of_room (char : Char) (hs : s.streams.tables = c.table :: outer)
    (hroom : cell c.addr c.text.length < s.machine.memory.size) :
    captureChar char s = .ok () (s.withTables
      (s.machine.memory.setByte (cell c.addr c.text.length) (Zscii.ofChar char).toUInt8)
      ({ c with text := c.text ++ [char] }.table :: outer)) := by
  have hwrite : onMachine (Machine.writeByte (cell c.addr c.text.length)
      (Zscii.ofChar char).toUInt8) s = .ok () _ :=
    onUpdate_eq_ok.mpr ⟨hroom, rfl⟩
  unfold captureChar
  rw [get_bind, hs]
  dsimp only
  rw [c.table_next, c.table_push char, bind_of_ok hwrite]
  rfl

/-- A table that lies in memory receives the characters. -/
theorem captureChars_of_room {chars : List Char} (hs : s.streams.tables = c.table :: outer)
    (hroom : c.addr + 2 + c.text.length + chars.length ≤ s.machine.memory.size) :
    ∃ t, captureChars chars s = .ok () t := by
  induction chars generalizing s c with
  | nil => exact ⟨s, rfl⟩
  | cons char chars ih =>
      -- The number of a cell wraps around, which only brings the cell nearer.
      have hcell : cell c.addr c.text.length ≤ c.addr + 2 + c.text.length :=
        Nat.add_le_add_left (Nat.mod_le ..) _
      rw [List.length_cons] at hroom
      have hchar := captureChar_of_room char hs (by omega)
      let later : Capture := { c with text := c.text ++ [char] }
      let q := s.withTables
        (s.machine.memory.setByte (cell c.addr c.text.length) (Zscii.ofChar char).toUInt8)
        (later.table :: outer)
      have hroom' : later.addr + 2 + later.text.length + chars.length ≤ q.machine.memory.size := by
        show c.addr + 2 + (c.text ++ [char]).length + chars.length ≤ (Memory.setByte ..).size
        rw [Memory.size_setByte, List.length_append, List.length_singleton]
        omega
      have hq : q.streams.tables = later.table :: outer := rfl
      obtain ⟨t, hchars⟩ := ih hq hroom'
      exact ⟨t, (bind_of_ok hchar).trans hchars⟩

/-- The innermost table receives a text. -/
theorem capture_of_room (text : String) (hs : s.streams.tables = c.table :: outer)
    (hroom : c.addr + 2 + c.text.length + text.toList.length ≤ s.machine.memory.size) :
    ∃ memory, writeOutput text s =
        .ok () (s.withTables memory ({ c with text := c.text ++ text.toList }.table :: outer)) ∧
      s.machine.memory.Receives memory c.addr c.text text.toList := by
  obtain ⟨t, h⟩ := captureChars_of_room hs hroom
  obtain ⟨memory, hreceives, rfl⟩ := captureChars_eq_ok hs h
  refine ⟨memory, ?_, hreceives⟩
  unfold writeOutput
  rw [get_bind, hs]
  exact h

/-- It receives one text after the other. -/
theorem captureAll_of_room {pieces : List String} (hs : s.streams.tables = c.table :: outer)
    (hroom : c.addr + 2 + c.text.length + (String.join pieces).toList.length ≤
      s.machine.memory.size) :
    ∃ memory, carryOutAll (pieces.map Order.write) s = .ok () (s.withTables memory
        ({ c with text := c.text ++ (String.join pieces).toList }.table :: outer)) ∧
      s.machine.memory.Receives memory c.addr c.text (String.join pieces).toList := by
  induction pieces generalizing s c with
  | nil =>
      refine ⟨s.machine.memory, ?_, Memory.receives_nil⟩
      rw [String.join_nil, String.toList_empty, List.append_nil, ← hs]
      rfl
  | cons piece pieces ih =>
      rw [String.join_cons, String.toList_append, List.length_append] at hroom
      obtain ⟨memory, hpiece, hreceives⟩ := capture_of_room piece hs (by omega)
      let later : Capture := { c with text := c.text ++ piece.toList }
      let q := s.withTables memory (later.table :: outer)
      have hq : q.streams.tables = later.table :: outer := rfl
      have hroom' : later.addr + 2 + later.text.length + (String.join pieces).toList.length ≤
          q.machine.memory.size := by
        show c.addr + 2 + (c.text ++ piece.toList).length + _ ≤ memory.size
        rw [hreceives.size, List.length_append]
        omega
      obtain ⟨memory', hpieces, hreceives'⟩ := ih hq hroom'
      refine ⟨memory', ?_, ?_⟩
      · rw [String.join_cons, String.toList_append, ← List.append_assoc]
        exact (bind_of_ok hpiece).trans hpieces
      · rw [String.join_cons, String.toList_append]
        exact hreceives.append hreceives'

theorem carryOutAll_append {orders later : List Order} (h : carryOutAll orders s = .ok () t) :
    carryOutAll (orders ++ later) s = carryOutAll later t := by
  induction orders generalizing s with
  | nil => cases h; rfl
  | cons order orders ih =>
      obtain ⟨⟨⟩, u, horder, h⟩ := bind_eq_ok.mp h
      exact (bind_of_ok horder).trans (ih h)

/-- **A table that is opened, receives the pieces of a text and is closed** holds the text. Nothing
but memory has changed. -/
theorem capture_text {addr : Nat} {pieces : List String} (htables : s.streams.tables = [])
    (hroom : addr + 2 + (String.join pieces).toList.length ≤ s.machine.memory.size) :
    ∃ memory, carryOutAll (.openTable addr :: (pieces.map Order.write ++ [.closeTable])) s =
        .ok () (s.withTables memory []) ∧
      memory.Holds addr (String.join pieces).toList := by
  let c : Capture := { addr }
  let q := s.withTables s.machine.memory [c.table]
  have hq : q.streams.tables = [c.table] := rfl
  have hopen : carryOut (.openTable addr) s = .ok () q := by
    obtain ⟨w, hw⟩ : ∃ w, s.machine.memory.readWord addr = .ok w := Memory.readWord_of_lt (by omega)
    have hopened : q = { s with streams.tables := { addr, written := 0 } :: s.streams.tables } := by
      rw [htables]
      rfl
    rw [hopened]
    exact bind_eq_ok.mpr ⟨_, s, rfl, lift_bind_eq_ok.mpr ⟨w, hw, rfl⟩⟩
  obtain ⟨memory, hpieces, hreceives⟩ := captureAll_of_room hq hroom
  let filled : Capture := { c with text := (String.join pieces).toList }
  let r := s.withTables memory [filled.table]
  have hr : r.streams.tables = [filled.table] := rfl
  have hclose : carryOutAll [.closeTable] r = .ok ()
      (s.withTables (memory.setWord addr (UInt16.ofNat filled.text.length)) []) := by
    have hlt : filled.addr + 1 < r.machine.memory.size := by
      show addr + 1 < memory.size
      rw [hreceives.size]
      show addr + 1 < s.machine.memory.size
      omega
    exact bind_of_ok (closeTable_of_cons hr hlt)
  refine ⟨memory.setWord addr (UInt16.ofNat filled.text.length), ?_, ?_⟩
  · calc carryOutAll (.openTable addr :: (pieces.map Order.write ++ [.closeTable])) s
        = carryOutAll (pieces.map Order.write ++ [.closeTable]) q := bind_of_ok hopen
      _ = carryOutAll [.closeTable] r := carryOutAll_append hpieces
      _ = _ := hclose
  · exact (hreceives.holds Memory.holds_nil).setWord _

end Session

/-! ## 3. Printing -/

namespace Handler

open Session

variable {H : Host} {s : Session H}

/-- **Codes in a row are printed** as their characters. -/
theorem printCells_of_codes {chars : List Char} {addr : Nat} (htables : s.streams.tables = [])
    (hselected : s.streams.sink = true)
    (hcodes : ∀ k c, chars[k]? = some c →
      ∃ code, s.machine.memory.readByte (addr + k) = .ok code ∧
        Zscii.toChar? code.toUInt16 = some c)
    (hroom : s.sink.Accepts (String.ofList chars).toUTF8.size) :
    printCells chars.length addr s = .ok () (s.sending (String.ofList chars)) := by
  induction chars generalizing s addr with
  | nil => exact congrArg (EStateM.Result.ok ()) s.sending_empty.symm
  | cons c chars ih =>
      have hbytes : (String.ofList (c :: chars)).toUTF8.size =
          c.toString.toUTF8.size + (String.ofList chars).toUTF8.size := by
        rw [String.ofList_cons]
        exact (congrArg ByteArray.size String.toByteArray_append).trans ByteArray.size_append
      rw [hbytes] at hroom
      obtain ⟨hfirst, hrest⟩ := hroom.split
      obtain ⟨code, hread, hcode⟩ := hcodes 0 c rfl
      have hprint : printCode code.toUInt16 s = .ok () (s.sending c.toString) := by
        unfold printCode
        rw [hcode]
        exact writeOutput_of_accepts htables hselected hfirst
      have hcells : printCells chars.length (addr + 1) (s.sending c.toString) =
          .ok () ((s.sending c.toString).sending (String.ofList chars)) := by
        refine ih htables hselected (fun k d hd => ?_) hrest
        obtain ⟨code, hread, hcode⟩ := hcodes (k + 1) d hd
        rw [show addr + 1 + k = addr + (k + 1) by omega]
        exact ⟨code, hread, hcode⟩
      rw [String.ofList_cons, ← sending_append]
      exact bind_eq_ok.mpr ⟨_, s, rfl, lift_bind_eq_ok.mpr
        ⟨code, hread, bind_eq_ok.mpr ⟨(), _, hprint, hcells⟩⟩⟩

/-- A table without a height has one row. -/
theorem printTable_of_printCells {t : Session H} {table width : Word}
    (h : printCells width.toNat table.toNat s = .ok () t) (i : Instruction) :
    printTable i [table, width] s = .ok .next t :=
  bind_eq_ok.mpr ⟨table, s, rfl, bind_eq_ok.mpr ⟨width, s, rfl, bind_of_ok h⟩⟩

end Handler

/-! ## 4. There and back -/

namespace Session

variable {H : Host}

/-- **A text that was captured is printed back as it was**, whatever pieces it was written in: all
its characters are those of codes, it is short enough for its number to be a word, and its table
lies in memory, where the address behind the number is a word. The sink, which is selected and has
room, gets nothing before the text is printed, and then this text. The codes and their characters
are inverse to each other, but for the carriage return. -/
theorem captured_text_prints_back (i : Instruction) (s : Session H) (addr : Word)
    (pieces : List String) (htables : s.streams.tables = []) (hselected : s.streams.sink = true)
    (hcoded : ∀ c ∈ (String.join pieces).toList, ∃ code, Zscii.toChar? code = some c)
    (hlength : (String.join pieces).length ≤ 65535) (haddr : addr.toNat + 2 ≤ 65535)
    (hroom : addr.toNat + 2 + (String.join pieces).length ≤ s.machine.memory.size)
    (haccepts : s.sink.Accepts (String.join pieces).toUTF8.size) :
    (∃ t u,
      carryOutAll (.openTable addr.toNat :: (pieces.map Order.write ++ [.closeTable])) s =
        .ok () t ∧
      t.sink = s.sink ∧
      Handler.printTable i [addr + 2, UInt16.ofNat (String.join pieces).length] t = .ok .next u ∧
      u.sink.written = s.sink.written ++ (String.join pieces).toUTF8) ∧
    ∀ code c, Zscii.toChar? code = some c ↔ Zscii.ofChar? c = some code ∧ c ≠ '\r' := by
  refine ⟨?_, fun code c => Zscii.toChar?_iff_ofChar?⟩
  rw [← String.length_toList] at hlength hroom ⊢
  obtain ⟨memory, hcapture, hholds⟩ := capture_text htables hroom
  let t := s.withTables memory []
  have hcodes : ∀ k c, (String.join pieces).toList[k]? = some c →
      ∃ code, t.machine.memory.readByte (addr.toNat + 2 + k) = .ok code ∧
        Zscii.toChar? code.toUInt16 = some c := by
    intro k c hc
    obtain ⟨code, hcode⟩ := hcoded c (List.mem_of_getElem? hc)
    have hk : k < (String.join pieces).toList.length := (List.getElem?_eq_some_iff.mp hc).1
    have hcell : cell addr.toNat k = addr.toNat + 2 + k := by
      unfold cell
      rw [Nat.mod_eq_of_lt (by omega)]
    have hbyte := hholds k c hc (by omega)
    rw [hcell] at hbyte
    exact ⟨_, Memory.readByte_eq_ok.mpr hbyte, Zscii.toChar?_byte hcode⟩
  have hprint : Handler.printCells (String.join pieces).toList.length (addr.toNat + 2) t =
      .ok () (t.sending (String.join pieces)) := by
    have h := Handler.printCells_of_codes (s := t) rfl hselected hcodes
    rw [String.ofList_toList] at h
    exact h haccepts
  have htable : (addr + 2).toNat = addr.toNat + 2 := by
    rw [UInt16.toNat_add]
    exact Nat.mod_eq_of_lt (by show addr.toNat + 2 < 65536; omega)
  have hwidth : (UInt16.ofNat (String.join pieces).toList.length).toNat =
      (String.join pieces).toList.length :=
    UInt16.toNat_ofNat_of_lt (show _ < 65536 by omega)
  rw [← htable, ← hwidth] at hprint
  exact ⟨t, _, hcapture, rfl, Handler.printTable_of_printCells hprint i, rfl⟩

/-- A session with thirty-two bytes of memory and a sink for seven. -/
def recording : Session Host.standard :=
  { blank with sink := { capacity := some 7 } }

/-- Prints five characters from 6 on. -/
def printFive : Instruction where
  opcode := ⟨.var, 0x1e⟩
  form := .variable
  operands := [⟨.small, 6⟩, ⟨.small, 5⟩]
  store := none
  branch := none
  textAddr := none
  size := 4

/-- Five characters of seven bytes, one of them a line end, written in three pieces. -/
theorem recording_prints_back :
    ∃ t u, carryOutAll [.openTable 4, .write "hé", .write "", .write "\nß~", .closeTable] recording =
        .ok () t ∧
      t.sink = recording.sink ∧
      Handler.printTable printFive [6, 5] t = .ok .next u ∧
      u.sink.written = recording.sink.written ++ "hé\nß~".toUTF8 := by
  have hall : (String.join ["hé", "", "\nß~"]).toList.all
      (fun c => Zscii.toChar? (Zscii.ofChar c) == some c) = true := by
    decide +kernel
  have hcoded : ∀ c ∈ (String.join ["hé", "", "\nß~"]).toList,
      ∃ code, Zscii.toChar? code = some c := by
    intro c hc
    exact ⟨_, eq_of_beq (List.all_eq_true.mp hall c hc)⟩
  exact (captured_text_prints_back printFive recording 4 ["hé", "", "\nß~"] rfl rfl hcoded
    (by decide +kernel) (by decide) (by decide +kernel) (by decide +kernel)).1

end Session

end ZMachine
