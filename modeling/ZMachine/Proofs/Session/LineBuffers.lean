import ZMachine.Proofs.Machine.Variables
import ZMachine.Proofs.Operation.Defects
import ZMachine.Proofs.Session.Step
import ZMachine.Proofs.Zscii

/-!
# Lines in text buffers

A line goes into a text buffer of the story as the codes of its characters, as many as the buffer
has room for. The buffer says in its first byte how many that are. Up to version 4 that counts the
zero byte behind the line; from version 5 on the byte in front of the line counts its characters.
Nothing else in memory changes, but for the variable that receives the result.

* `Session.Typed`                 : the bytes that a line puts into a buffer.
* `Session.Undisturbed`           : what is done before the line is read and leaves it to be read.
* `Machine.ResultAt`              : the bytes of the variable that receives a result.
* `Handler.readInto_eq_ok`        : what both instructions have in common.
* `Handler.lines_fill_buffers`    : what each makes of memory.
-/

namespace ZMachine

open ZMachine.Action

/-! ## 1. The bytes of a line -/

namespace Session

variable {H : Host} {α : Type}

/-- The codes of a line. Characters without a code and line ends have none. -/
def typedCodes (line : List Char) : List Word :=
  line.filterMap fun c => (Zscii.ofChar? c).filter (· != Zscii.newline)

/-- The bytes are the first codes of the line, as many as there is room for. -/
structure Typed (capacity : Nat) (line : List Char) (bytes : List UInt8) : Prop where
  codes : bytes.map (·.toUInt16) = (typedCodes line).take capacity
  length : bytes.length = min capacity (typedCodes line).length
  /-- None of them ends a line or a buffer. -/
  printable : ∀ b ∈ bytes, b ≠ 0 ∧ b ≠ 13

theorem filter_codes (line : List Char) :
    (line.filterMap Zscii.ofChar?).filter (· != Zscii.newline) = typedCodes line :=
  List.filter_filterMap

theorem denotes_of_typedCodes {line : List Char} {code : Word} (h : code ∈ typedCodes line) :
    ∃ c, Zscii.Denotes code c ∧ code ≠ Zscii.newline := by
  obtain ⟨c, -, hc⟩ := List.mem_filterMap.mp h
  obtain ⟨hc, hne⟩ := Option.filter_eq_some_iff.mp hc
  have hne : code ≠ Zscii.newline := bne_iff_ne.mp hne
  rcases Zscii.ofChar?_eq_some.mp hc with hd | ⟨-, hcode⟩
  · exact ⟨c, hd, hne⟩
  · exact absurd hcode hne

/-- **What is read of a line are its first codes.** -/
theorem typed_lineCodes (capacity : Nat) (line : List Char) :
    Typed capacity line (lineCodes capacity line) := by
  unfold lineCodes
  rw [filter_codes]
  have hback : ∀ code ∈ (typedCodes line).take capacity, code.toUInt8.toUInt16 = code := by
    intro code hcode
    obtain ⟨c, hd, -⟩ := denotes_of_typedCodes (List.mem_of_mem_take hcode)
    exact hd.toUInt16_toUInt8
  refine ⟨?_, ?_, fun b hb => ?_⟩
  · rw [List.map_map]
    exact (List.map_congr_left hback).trans (List.map_id' _)
  · rw [List.length_map, List.length_take]
  · obtain ⟨code, hcode, rfl⟩ := List.mem_map.mp hb
    obtain ⟨c, hd, hne⟩ := denotes_of_typedCodes (List.mem_of_mem_take hcode)
    have hrange := hd.range.resolve_left hne
    have hcode := hback code hcode
    constructor
    · intro h
      rw [← hcode, h] at hrange
      exact absurd hrange (by decide)
    · intro h
      rw [← hcode, h] at hrange
      exact absurd hrange (by decide)

/-- No other bytes are these. -/
theorem Typed.unique {capacity : Nat} {line : List Char} {bytes bytes' : List UInt8}
    (h : Typed capacity line bytes) (h' : Typed capacity line bytes') : bytes = bytes' := by
  have hinj : Function.Injective fun b : UInt8 => b.toUInt16 := fun _ _ => UInt8.toUInt16_inj.mp
  exact hinj.list_map (h.codes.trans h'.codes.symm)

/-! ## 2. Before the line is read -/

/-- The machine and the input are as they were. -/
structure Undisturbed (s t : Session H) : Prop where
  machine : t.machine = s.machine
  input : t.input = s.input

instance : IsPreorder (Session H) Undisturbed where
  refl _ := ⟨rfl, rfl⟩
  trans _ _ _ h h' := ⟨h'.machine.trans h.machine, h'.input.trans h.input⟩

theorem undisturbed_onMachine {x : Action Machine α} (h : Keeps Eq x) :
    Keeps Undisturbed (onMachine x : Exec H α) :=
  (reads_onMachine h).mono fun h => h ▸ ⟨rfl, rfl⟩

theorem undisturbed_decodeText (addr : Nat) :
    Keeps Undisturbed (decodeText addr : Exec H String) := by
  refine Keeps.bind keeps_get fun s => ?_
  exact Keeps.bind (keeps_lift _) fun _ => keeps_pure _

theorem undisturbed_refreshStatusLine :
    Keeps Undisturbed (Handler.refreshStatusLine : Exec H Unit) := by
  have hglobal (var : Word) :
      Keeps Undisturbed (onMachine (Machine.readGlobal var) : Exec H Word) :=
    undisturbed_onMachine (Machine.keeps_readGlobal var)
  have hname : Keeps Undisturbed (Handler.locationName : Exec H String) := by
    refine Keeps.bind (hglobal _) fun location => ?_
    refine Keeps.bind keeps_get fun s => ?_
    split
    · refine Meets.ite (keeps_pure _) ?_
      exact Keeps.bind (keeps_lift _) fun addr => undisturbed_decodeText addr
    · exact keeps_pure _
  refine Keeps.bind hname fun location => ?_
  refine Keeps.bind (hglobal _) fun left => ?_
  refine Keeps.bind (hglobal _) fun right => ?_
  refine Keeps.bind (Keeps.bind keeps_get fun _ => keeps_pure _) fun memory => ?_
  exact Keeps.bind (keeps_lift _) fun flags => keeps_modify fun _ => ⟨rfl, rfl⟩

theorem undisturbed_flush : Keeps Undisturbed (flush : Exec H Unit) where
  ok {s u t} h := by
    unfold flush onSink at h
    split at h
    · cases h
      exact ⟨rfl, rfl⟩
    · cases h
  error {s e t} h := by
    unfold flush onSink at h
    split at h
    · cases h
    · cases h
      exact ⟨rfl, rfl⟩

/-- A line that is read leaves the machine alone. -/
theorem readCodes_of_line {small : List Char → List Char} {capacity : Nat} {s t : Session H}
    {codes : Option (List UInt8)} {line : List Char} {input : Input}
    (hline : Input.readLine s.input = .ok (some line) input)
    (h : readCodes small capacity s = .ok codes t) :
    codes = some (lineCodes capacity (small line)) ∧ t.machine = s.machine := by
  obtain ⟨line', q, hread, h⟩ := bind_eq_ok.mp h
  obtain ⟨u, r, hflush, hread⟩ := bind_eq_ok.mp hread
  have hr := undisturbed_flush.ok hflush
  unfold onInput at hread
  rw [hr.input, hline] at hread
  cases hread
  cases h
  exact ⟨rfl, hr.machine⟩

end Session

/-! ## 3. The result -/

namespace Machine

/-- The address lies in the variable that receives the result, which is then a global. -/
def ResultAt (memory : Memory) (store : Option UInt8) (addr : Nat) : Prop :=
  ∃ var ∈ store, ∃ cell, GlobalAt memory var.toUInt16 cell ∧ (addr = cell ∨ addr = cell + 1)

/-- A result changes memory nowhere else. -/
theorem getElem?_of_storeResult {store : Option UInt8} {value : Word} {m m' : Machine} {u : Unit}
    {addr : Nat} (h : storeResult store value m = .ok u m') (ha : ¬ ResultAt m.memory store addr) :
    m'.memory.bytes[addr]? = m.memory.bytes[addr]? := by
  cases storeResult_eq_ok.mp h with
  | nowhere => rfl
  | stored var hs =>
      cases onlyCell_of_stored hs with
      | stack values hvar => rfl
      | slot f fs locals hpos hle hf hlength hothers => rfl
      | word cell memory hcell hsize hothers =>
          refine hothers addr (fun h => ha ?_) fun h => ha ?_
          · exact ⟨var, rfl, cell, hcell, .inl h⟩
          · exact ⟨var, rfl, cell, hcell, .inr h⟩

end Machine

/-! ## 4. The instructions -/

namespace Handler

open Session

variable {H : Host} {small : List Char → List Char} {i : Instruction} {buffer : Word}
  {rest : List Word} {s t : Session H} {flow : Flow} {line : List Char} {input : Input}

/-- Reads a line of as many codes as the buffer has room for, and does something with them. -/
def readInto (small : List Char → List Char) (room : UInt8 → Nat)
    (fill : List UInt8 → Exec H Flow) (buffer : Nat) : Exec H Flow := do
  let size ← (← memory).readByte buffer
  match ← readCodes small (room size) with
  | none => return .quit
  | some codes => fill codes

/-- The line up to version 4, with a zero byte behind it. -/
def fillEnded (buffer parseBuffer : Nat) (codes : List UInt8) : Exec H Flow := do
  onMachine (Machine.writeSlice (buffer + 1) codes)
  onMachine (Machine.writeByte (buffer + 1 + codes.length) 0)
  tokenise (plainRequest buffer parseBuffer)
  return .next

/-- The line from version 5 on, with its length in front of it. -/
def fillCounted (i : Instruction) (buffer parseBuffer : Nat) (codes : List UInt8) :
    Exec H Flow := do
  onMachine (Machine.writeByte (buffer + 1) (UInt8.ofNat codes.length))
  onMachine (Machine.writeSlice (buffer + 2) codes)
  tokenise (plainRequest buffer parseBuffer)
  onMachine (Machine.deliver i Zscii.newline)

theorem sread_eq :
    sread small i (buffer :: rest) s =
      (if s.machine.version ≤ 3 then do
        refreshStatusLine
        readInto small (·.toNat - 1) (fillEnded buffer.toNat (rest.getD 0 0).toNat) buffer.toNat
      else
        readInto small (·.toNat - 1) (fillEnded buffer.toNat (rest.getD 0 0).toNat)
          buffer.toNat : Exec H Flow) s :=
  rfl

theorem aread_eq :
    aread small i (buffer :: rest) s =
      readInto small (·.toNat) (fillCounted i buffer.toNat (rest.getD 0 0).toNat) buffer.toNat s :=
  rfl

/-- **A line that is read into a buffer** has as many codes as its first byte leaves room for. -/
theorem readInto_eq_ok {room : UInt8 → Nat} {fill : List UInt8 → Exec H Flow} {buffer : Nat}
    (hline : Input.readLine s.input = .ok (some line) input)
    (h : readInto small room fill buffer s = .ok flow t) :
    ∃ size q, s.machine.memory.readByte buffer = .ok size ∧ q.machine = s.machine ∧
      fill (lineCodes (room size) (small line)) q = .ok flow t := by
  obtain ⟨memory, r, hmemory, h⟩ := bind_eq_ok.mp h
  cases hmemory
  obtain ⟨size, hsize, h⟩ := lift_bind_eq_ok.mp h
  obtain ⟨codes, q, hcodes, h⟩ := bind_eq_ok.mp h
  obtain ⟨rfl, hq⟩ := readCodes_of_line hline hcodes
  exact ⟨size, q, hsize, hq, h⟩

/-- Without a parse buffer nothing is taken apart. -/
theorem tokenise_zero (q : Session H) (buffer : Nat) :
    tokenise (plainRequest buffer 0) q = .ok () q :=
  rfl

theorem fillEnded_eq_ok {buffer : Nat} {codes : List UInt8}
    (h : fillEnded buffer 0 codes s = .ok flow t) :
    flow = .next ∧ s.machine.memory.Rewritten t.machine.memory (buffer + 1) (codes.length + 1)
      ((codes ++ [0])[·]?) := by
  obtain ⟨⟨⟩, q, hslice, h⟩ := bind_eq_ok.mp h
  obtain ⟨-, rfl⟩ := onUpdate_eq_ok.mp hslice
  obtain ⟨⟨⟩, r, hbyte, h⟩ := bind_eq_ok.mp h
  obtain ⟨hle, rfl⟩ := onUpdate_eq_ok.mp hbyte
  rw [bind_of_ok (tokenise_zero _ _)] at h
  cases h
  have hle : buffer + 1 + codes.length + 1 ≤ s.machine.memory.size := by
    rwa [Memory.size_overwrite] at hle
  have hlength : (codes ++ [0]).length = codes.length + 1 := by
    rw [List.length_append, List.length_singleton]
  have hrow : s.machine.memory.Rewritten (s.machine.memory.overwrite (buffer + 1) (codes ++ [0]))
      (buffer + 1) (codes ++ [0]).length ((codes ++ [0])[·]?) :=
    Memory.rewritten_overwrite (by omega)
  rw [hlength, Memory.overwrite_append] at hrow
  exact ⟨rfl, hrow⟩

theorem fillCounted_eq_ok {buffer : Nat} {codes : List UInt8}
    (h : fillCounted i buffer 0 codes s = .ok flow t) :
    flow = .next ∧ ∃ written,
      s.machine.memory.Rewritten written (buffer + 1) (codes.length + 1)
        ((UInt8.ofNat codes.length :: codes)[·]?) ∧
      Machine.storeResult i.store Zscii.newline { s.machine with memory := written } =
        .ok () t.machine := by
  obtain ⟨⟨⟩, q, hbyte, h⟩ := bind_eq_ok.mp h
  obtain ⟨-, rfl⟩ := onUpdate_eq_ok.mp hbyte
  obtain ⟨⟨⟩, r, hslice, h⟩ := bind_eq_ok.mp h
  obtain ⟨hle, rfl⟩ := onUpdate_eq_ok.mp hslice
  rw [bind_of_ok (tokenise_zero _ _)] at h
  obtain ⟨m, hm, rfl⟩ := onMachine_eq_ok.mp h
  obtain ⟨⟨⟩, m', hstore, hm⟩ := bind_eq_ok.mp hm
  cases hm
  have hle : buffer + 2 + codes.length ≤ s.machine.memory.size := by
    rwa [Memory.size_setByte] at hle
  have hrow : s.machine.memory.Rewritten
      (s.machine.memory.overwrite (buffer + 1) (UInt8.ofNat codes.length :: codes)) (buffer + 1)
      (codes.length + 1) ((UInt8.ofNat codes.length :: codes)[·]?) :=
    Memory.rewritten_overwrite (by rw [List.length_cons]; omega)
  exact ⟨rfl, _, hrow, hstore⟩

/-- **A line that is read stays in its buffer.** Its first byte says how long the line may get, with
the zero byte that ends it or without. Of the line in small letters, whatever these are, the bytes
are the first codes, as many as there are and as fit; none is 0 or a line end. They stand in the
buffer with the zero behind them, or with their number in front, and the rest of memory is as it
was. In the second case that is before the result is delivered, which changes memory in its own
variable alone. -/
theorem lines_fill_buffers (small : List Char → List Char) (i : Instruction) (buffer : Word)
    (rest : List Word) (s t : Session H) (flow : Flow) (line : List Char) (input : Input)
    (hparse : rest.getD 0 0 = 0) (hline : Input.readLine s.input = .ok (some line) input) :
    (sread small i (buffer :: rest) s = .ok flow t →
      flow = .next ∧ ∃ size bytes, s.machine.memory.readByte buffer.toNat = .ok size ∧
        Typed (size.toNat - 1) (small line) bytes ∧
        s.machine.memory.Rewritten t.machine.memory (buffer.toNat + 1) (bytes.length + 1)
          ((bytes ++ [0])[·]?)) ∧
    (aread small i (buffer :: rest) s = .ok flow t →
      flow = .next ∧ ∃ size bytes count written, s.machine.memory.readByte buffer.toNat = .ok size ∧
        Typed size.toNat (small line) bytes ∧ count.toNat = bytes.length ∧
        s.machine.memory.Rewritten written (buffer.toNat + 1) (bytes.length + 1)
          ((count :: bytes)[·]?) ∧
        Machine.storeResult i.store Zscii.newline { s.machine with memory := written } =
          .ok () t.machine ∧
        ∀ addr, ¬ Machine.ResultAt written i.store addr →
          t.machine.memory.bytes[addr]? = written.bytes[addr]?) := by
  have hzero : (rest.getD 0 0).toNat = 0 := congrArg UInt16.toNat hparse
  constructor
  · intro h
    obtain ⟨q, hq, h⟩ : ∃ q, Undisturbed s q ∧
        readInto small (·.toNat - 1) (fillEnded buffer.toNat 0) buffer.toNat q = .ok flow t := by
      rw [sread_eq, hzero] at h
      split at h
      · obtain ⟨⟨⟩, q, hshow, h⟩ := bind_eq_ok.mp h
        exact ⟨q, undisturbed_refreshStatusLine.ok hshow, h⟩
      · exact ⟨s, ⟨rfl, rfl⟩, h⟩
    obtain ⟨size, r, hsize, hr, h⟩ := readInto_eq_ok (hq.input ▸ hline) h
    obtain ⟨hflow, hrow⟩ := fillEnded_eq_ok h
    rw [hr, hq.machine] at hrow
    exact ⟨hflow, size, _, hq.machine ▸ hsize, typed_lineCodes _ _, hrow⟩
  · intro h
    rw [aread_eq, hzero] at h
    obtain ⟨size, r, hsize, hr, h⟩ := readInto_eq_ok hline h
    obtain ⟨hflow, written, hrow, hstore⟩ := fillCounted_eq_ok h
    rw [hr] at hrow hstore
    have htyped := typed_lineCodes size.toNat (small line)
    have hcount : (UInt8.ofNat (lineCodes size.toNat (small line)).length).toNat =
        (lineCodes size.toNat (small line)).length := by
      have hlt := UInt8.toNat_lt size
      have hlength := htyped.length
      exact UInt8.toNat_ofNat_of_lt (show _ < 256 by omega)
    exact ⟨hflow, size, _, _, written, hsize, htyped, hcount, hrow, hstore,
      fun addr ha => Machine.getElem?_of_storeResult hstore ha⟩

/-- A session with a text buffer at 1 that says 4, and a line that has seven codes ahead. -/
def hearing (version : UInt8) : Session Host.standard :=
  { bare
      { memory := ⟨#[0, 4, 9, 9, 9, 9, 9, 9]⟩
        version
        pc := 0
        stack := []
        frames := [Frame.main [0]]
        stackLimit := 0 } with
    input := ⟨[], [some ['G', 'O', '\r', ' ', 'W', 'E', 'S', 'T', '\n']]⟩ }

/-- Reads a line, with a result for the first local from version 5 on. -/
def readAtOne (store : Option UInt8) : Instruction where
  opcode := ⟨.var, 4⟩
  form := .variable
  operands := [⟨.small, 1⟩, ⟨.small, 0⟩]
  store
  branch := none
  textAddr := none
  size := 4

/-- Three codes and a zero byte, or four codes and their number, with the code of the line end in
the local. -/
theorem hearing_fills_buffer :
    (∃ t, sread Text.smallLetters (readAtOne none) [1, 0] (hearing 4) = .ok .next t ∧
      Typed 3 ['g', 'o', '\r', ' ', 'w', 'e', 's', 't'] [103, 111, 32] ∧
      (hearing 4).machine.memory.Rewritten t.machine.memory 2 4
        (([103, 111, 32, 0] : List UInt8)[·]?) ∧
      t.machine.memory.bytes = #[0, 4, 103, 111, 32, 0, 9, 9]) ∧
    ∃ t written, aread Text.smallLetters (readAtOne (some 1)) [1, 0] (hearing 5) = .ok .next t ∧
      Typed 4 ['g', 'o', '\r', ' ', 'w', 'e', 's', 't'] [103, 111, 32, 119] ∧
      (hearing 5).machine.memory.Rewritten written 2 5
        (([4, 103, 111, 32, 119] : List UInt8)[·]?) ∧
      t.machine.memory.bytes = #[0, 4, 4, 103, 111, 32, 119, 9] ∧
      t.machine.frames = [Frame.main [13]] := by
  constructor
  · obtain ⟨hsread, -⟩ := lines_fill_buffers Text.smallLetters (readAtOne none) 1 [0] (hearing 4) _
      .next _ _ rfl rfl
    obtain ⟨-, size, bytes, hsize, htyped, hrow⟩ := hsread rfl
    cases hsize
    obtain rfl : bytes = [103, 111, 32] := htyped.unique (typed_lineCodes 3 _)
    exact ⟨_, rfl, htyped, hrow, rfl⟩
  · obtain ⟨-, haread⟩ := lines_fill_buffers Text.smallLetters (readAtOne (some 1)) 1 [0]
      (hearing 5) _ .next _ _ rfl rfl
    obtain ⟨-, size, bytes, count, written, hsize, htyped, hcount, hrow, -⟩ := haread rfl
    cases hsize
    obtain rfl : bytes = [103, 111, 32, 119] := htyped.unique (typed_lineCodes 4 _)
    obtain rfl : count = 4 := UInt8.toNat_inj.mp hcount
    exact ⟨_, written, rfl, htyped, hrow, rfl, rfl⟩

end Handler

end ZMachine
