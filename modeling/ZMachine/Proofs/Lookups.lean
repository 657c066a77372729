import ZMachine.Proofs.Compression
import ZMachine.Proofs.Decoding
import ZMachine.Proofs.Snapshot

/-!
# Look-ups that cannot fail

Beside the look-ups that report a defect, the library uses operations that are never without an
answer: a stretch of a row is cut short at its end, a difference of numbers stops at 0. Here the
definitions that rely on them are spelled with operations that fail where there is no such stretch
or difference, with a fault `e` of one's choice. The two agree for every `e`; so none of these
operations fails.

* `elementOr`, `stretchOr`, `differenceOr` : an element, a stretch, a difference, or `e`.
* `Compression.unpackOr` : a stored form unpacked into the part of memory filled so far, with
  stretches of the whole story.
* `SpelledOut`           : all of these definitions.
-/

namespace ZMachine

/-! ## 1. Operations that may fail -/

section

variable {α : Type}

/-- The element at a place of a row, or `e` if there is none. -/
def elementOr (e : Fault) (row : List α) (place : Nat) : Except Fault α :=
  match row[place]? with
  | some a => .ok a
  | none => .error e

/-- The stretch of a row between two places, or `e` if the row does not reach that far or the places
are in the wrong order. -/
def stretchOr (e : Fault) (row : List α) (first stop : Nat) : Except Fault (List α) :=
  if first ≤ stop ∧ stop ≤ row.length then .ok (row.extract first stop) else .error e

/-- The difference of two numbers, or `e` if it is negative. -/
def differenceOr (e : Fault) (a b : Nat) : Except Fault Nat :=
  if b ≤ a then .ok (a - b) else .error e

theorem elementOr_of_lt {e : Fault} {row : List α} {place : Nat} (h : place < row.length) :
    elementOr e row place = .ok row[place] := by
  unfold elementOr
  rw [List.getElem?_eq_getElem h]

theorem stretchOr_of_le {e : Fault} {row : List α} {first stop : Nat} (h : first ≤ stop)
    (h' : stop ≤ row.length) : stretchOr e row first stop = .ok (row.extract first stop) :=
  if_pos ⟨h, h'⟩

theorem differenceOr_of_le {e : Fault} {a b : Nat} (h : b ≤ a) :
    differenceOr e a b = .ok (a - b) :=
  if_pos h

end

/-! ## 2. Memory -/

namespace Memory

theorem check_of_le {m : Memory} {addr width : Nat} (h : addr + width ≤ m.size) :
    m.check addr width = .ok () :=
  if_pos h

theorem check_of_gt {m : Memory} {addr width : Nat} (h : ¬ addr + width ≤ m.size) :
    m.check addr width = .error (.addressOutOfRange addr m.size) :=
  if_neg h

theorem readByte_eq (e : Fault) (m : Memory) (addr : Nat) :
    m.readByte addr = (do
      m.check addr 1
      elementOr e m.bytes.toList addr) := by
  unfold readByte
  by_cases h : addr + 1 ≤ m.size
  · have hlt : addr < m.bytes.size := h
    rw [check_of_le h, Array.getElem?_eq_getElem hlt]
    exact (elementOr_of_lt hlt).symm
  · have hge : m.bytes.size ≤ addr := Nat.le_of_not_lt h
    rw [check_of_gt h, Array.getElem?_eq_none hge]
    rfl

theorem readWord_eq (e : Fault) (m : Memory) (addr : Nat) :
    m.readWord addr = (do
      m.check addr 2
      return Word.ofBytes (← elementOr e m.bytes.toList addr)
        (← elementOr e m.bytes.toList (addr + 1))) := by
  unfold readWord
  by_cases h : addr + 2 ≤ m.size
  · have hlt : addr + 1 < m.bytes.size := h
    have hlt' : addr < m.bytes.size := Nat.lt_of_succ_lt hlt
    have hhigh : elementOr e m.bytes.toList addr = .ok m.bytes[addr] := elementOr_of_lt hlt'
    have hlow : elementOr e m.bytes.toList (addr + 1) = .ok m.bytes[addr + 1] := elementOr_of_lt hlt
    rw [check_of_le h, Array.getElem?_eq_getElem hlt, Array.getElem?_eq_getElem hlt', hhigh, hlow]
    rfl
  · have hge : m.bytes.size ≤ addr + 1 := Nat.le_of_not_lt h
    rw [check_of_gt h, Array.getElem?_eq_none hge]
    cases m.bytes[addr]? with
    | none => rfl
    | some high => rfl

theorem slice_eq (e : Fault) (m : Memory) (addr length : Nat) :
    m.slice addr length = (do
      m.check addr length
      stretchOr e m.bytes.toList addr (addr + length)) := by
  refine Action.except_bind_congr fun _ hc => ?_
  have hle : addr + length ≤ m.bytes.toList.length := Machine.check_eq_ok.mp hc
  rw [stretchOr_of_le (Nat.le_add_right _ _) hle, ← Array.toList_extract]
  rfl

/-- Puts a row of bytes in the place of as many others, or fails with `e` if memory does not reach
that far. -/
def replaceOr (e : Fault) (m : Memory) (addr : Nat) (data : List UInt8) : Except Fault Memory :=
  if addr + data.length ≤ m.size then .ok (m.overwrite addr data) else .error e

end Memory

namespace Machine

open ZMachine.Action

/-- A write to memory, spelled with bytes that are put in the place of others. -/
def writeOr (e : Fault) (addr : Nat) (data : List UInt8) : Action Machine Unit := do
  (← get).memory.check addr data.length
  let memory ← (← get).memory.replaceOr e addr data
  modify fun m => { m with memory }

theorem writeSlice_eq (e : Fault) (addr : Nat) (data : List UInt8) :
    writeSlice addr data = writeOr e addr data := by
  funext m
  unfold writeSlice update writeOr
  rw [get_bind, get_bind]
  by_cases h : addr + data.length ≤ m.memory.size
  · rw [Memory.check_of_le h]
    show _ = (do
      let memory ← m.memory.replaceOr e addr data
      modify fun m => { m with memory } : Action Machine Unit) m
    rw [show m.memory.replaceOr e addr data = .ok (m.memory.overwrite addr data) from if_pos h]
    rfl
  · rw [Memory.check_of_gt h]
    rfl

theorem globalAddr_eq (e : Fault) (memory : Memory) (var : Word) :
    globalAddr memory var = (do
      if 0x10 ≤ var ∧ var ≤ 0xff then
        let table ← Header.globalVariables memory
        return table.toNat + (← differenceOr e var.toNat 0x10) * 2
      else
        .error (.invalidVariable var)) := by
  unfold globalAddr
  by_cases h : 0x10 ≤ var ∧ var ≤ 0xff
  · rw [if_pos h, if_pos h]
    have hle : 0x10 ≤ var.toNat := UInt16.le_iff_toNat_le.mp h.1
    rw [differenceOr_of_le hle]
    rfl
  · rw [if_neg h, if_neg h]

end Machine

/-! ## 3. Strings and instructions -/

theorem ZString.encodedLength_eq (e : Fault) (m : Memory) (addr : Nat) :
    encodedLength m addr = (do differenceOr e (← stringEnd m addr) addr) := by
  refine Action.except_bind_congr fun stop hstop => ?_
  have hle : addr ≤ stop := by
    have := stringEnd_bounds hstop
    omega
  exact (differenceOr_of_le hle).symm

theorem Instruction.size_eq (e : Fault) {m : Memory} {version : UInt8} {p q : Nat} {i : Instruction}
    (h : scan m version p = .ok i q) : differenceOr e q p = .ok i.size := by
  obtain ⟨rfl, -⟩ := scan_layout h
  rw [differenceOr_of_le (Nat.le_add_right _ _), Nat.add_sub_cancel_left]

/-! ## 4. Snapshots -/

namespace Compression

/-- The differences of two rows, so many from a place on. -/
def differencesOr (e : Fault) (current story : List UInt8) :
    Nat → Nat → Except Fault (List UInt8)
  | 0, _ => .ok []
  | count + 1, place => do
      let d := (← elementOr e current place) ^^^ (← elementOr e story place)
      return d :: (← differencesOr e current story count (place + 1))

theorem differencesOr_eq {e : Fault} {current story : List UInt8}
    (h : current.length = story.length) : ∀ {count place : Nat}, place + count = current.length →
    differencesOr e current story count place =
      .ok (List.zipWith (· ^^^ ·) (current.drop place) (story.drop place))
  | 0, place, hp => by
      have hnil : current.drop place = [] := List.drop_eq_nil_of_le (by omega)
      rw [hnil]
      rfl
  | count + 1, place, hp => by
      have hc : place < current.length := by omega
      have hs : place < story.length := by omega
      unfold differencesOr
      rw [elementOr_of_lt hc, elementOr_of_lt hs, differencesOr_eq h (by omega),
        List.drop_eq_getElem_cons hc, List.drop_eq_getElem_cons hs, List.zipWith_cons_cons]
      rfl

theorem compress_eq (e : Fault) (current story : List UInt8) :
    compress current story =
      if current.length = story.length then do
        return encode 0 (← differencesOr e current story current.length 0)
      else
        .error (.refused (.sizesDiffer current.length story.length)) := by
  unfold compress
  by_cases h : current.length = story.length
  · rw [if_pos h, if_pos h, differencesOr_eq h (Nat.zero_add _)]
    rfl
  · rw [if_neg h, if_neg h]

/-- The memory of a stored form, given the part of it that is filled so far: runs of unchanged bytes
are stretches of the whole story, and so is what is left at the end. -/
def unpackOr (e : Fault) (story : List UInt8) : List UInt8 → List UInt8 → Except Fault (List UInt8)
  | [], filled => do
      return filled ++ (← stretchOr e story filled.length story.length)
  | d :: rest, filled =>
      if d = 0 then
        match rest with
        | [] => .error (.refused .incompleteRun)
        | run :: rest =>
            let stop := filled.length + (run.toNat + 1)
            if stop ≤ story.length then do
              unpackOr e story rest (filled ++ (← stretchOr e story filled.length stop))
            else
              .error (.refused .runBeyondMemory)
      else
        match story[filled.length]? with
        | none => .error (.refused .dataBeyondMemory)
        | some b => unpackOr e story rest (filled ++ [b ^^^ d])

theorem decompress_stretch (run : UInt8) (rest story : List UInt8) :
    decompress (0 :: run :: rest) story =
      if run.toNat + 1 ≤ story.length then do
        return story.take (run.toNat + 1) ++ (← decompress rest (story.drop (run.toNat + 1)))
      else
        .error (.refused .runBeyondMemory) := by
  rw [decompress.eq_def]
  rfl

/-- **Stored forms are unpacked by stretches that the story has**: what is filled never outgrows
it. -/
theorem unpackOr_eq {e : Fault} {story stored filled : List UInt8}
    (h : filled.length ≤ story.length) :
    unpackOr e story stored filled = (do
      return filled ++ (← decompress stored (story.drop filled.length))) := by
  fun_induction unpackOr e story stored filled with
  | case1 filled =>
      rw [stretchOr_of_le h (Nat.le_refl _), List.extract_eq_take_drop, ← List.length_drop,
        List.take_length]
      rfl
  | case2 filled => rfl
  | case3 filled run rest stop hstop ih =>
      have hrun : run.toNat + 1 ≤ (story.drop filled.length).length := by
        rw [List.length_drop]
        omega
      have hstretch : stretchOr e story filled.length stop =
          .ok ((story.drop filled.length).take (run.toNat + 1)) := by
        rw [stretchOr_of_le (Nat.le_add_right _ _) hstop, List.extract_eq_take_drop,
          Nat.add_sub_cancel_left]
      have hlength : (filled ++ (story.drop filled.length).take (run.toNat + 1)).length = stop := by
        rw [List.length_append, List.length_take, Nat.min_eq_left hrun]
      rw [hstretch, decompress_stretch, if_pos hrun]
      show unpackOr e story rest _ = _
      rw [ih _ (hlength ▸ hstop), hlength, List.drop_drop]
      cases decompress rest (story.drop stop) with
      | ok left => exact congrArg Except.ok (List.append_assoc _ _ _)
      | error e => rfl
  | case4 filled run rest stop hstop =>
      have hrun : ¬ run.toNat + 1 ≤ (story.drop filled.length).length := by
        rw [List.length_drop]
        omega
      rw [decompress_stretch, if_neg hrun]
      rfl
  | case5 d rest filled hd hb =>
      rw [List.drop_eq_nil_of_le (List.getElem?_eq_none_iff.mp hb), decompress.eq_def]
      dsimp only
      rw [if_neg hd]
      rfl
  | case6 d rest filled hd b hb ih =>
      obtain ⟨hlt, rfl⟩ := List.getElem?_eq_some_iff.mp hb
      rw [ih (by rw [List.length_append]; exact hlt), List.drop_eq_getElem_cons hlt,
        decompress_literal hd, List.length_append]
      cases decompress rest (story.drop (filled.length + 1)) with
      | ok left => exact congrArg Except.ok (List.append_assoc _ _ _)
      | error e => rfl

theorem decompress_eq (e : Fault) (stored story : List UInt8) :
    decompress stored story = unpackOr e story stored [] := by
  rw [unpackOr_eq (Nat.zero_le _)]
  show decompress stored story = (do return [] ++ (← decompress stored story))
  cases decompress stored story with
  | ok current => rfl
  | error e => rfl

end Compression

/-- Dynamic memory and the part of the story it is compared with are stretches of the size that was
checked. -/
theorem Snapshot.stretches_eq (e : Fault) {memory : Memory} {story : Array UInt8} {size : Nat}
    (h : dynamicSize memory story = .ok size) :
    memory.slice 0 size = stretchOr e memory.bytes.toList 0 size ∧
      storyPart story size = stretchOr e story.toList 0 size := by
  obtain ⟨base, -, rfl, hs, hm⟩ := dynamicSize_eq_ok.mp h
  constructor
  · rw [Memory.slice_eq e, Memory.check_of_le (by omega), Nat.zero_add]
    rfl
  · unfold storyPart
    rw [if_pos hs, stretchOr_of_le (Nat.zero_le _) hs, Array.toList_extract]

/-! ## 5. All of them -/

/-- The definitions that rely on an element, a stretch or a difference, spelled with the operations
that fail with `e` where there is none. -/
structure SpelledOut (e : Fault) : Prop where
  readByte : ∀ (m : Memory) (addr : Nat), m.readByte addr = (do
    m.check addr 1
    elementOr e m.bytes.toList addr)
  readWord : ∀ (m : Memory) (addr : Nat), m.readWord addr = (do
    m.check addr 2
    return Word.ofBytes (← elementOr e m.bytes.toList addr)
      (← elementOr e m.bytes.toList (addr + 1)))
  slice : ∀ (m : Memory) (addr length : Nat), m.slice addr length = (do
    m.check addr length
    stretchOr e m.bytes.toList addr (addr + length))
  writeByte : ∀ (addr : Nat) (value : UInt8),
    Machine.writeByte addr value = Machine.writeOr e addr [value]
  writeWord : ∀ (addr : Nat) (value : Word),
    Machine.writeWord addr value = Machine.writeOr e addr [value.high, value.low]
  writeSlice : ∀ (addr : Nat) (data : List UInt8),
    Machine.writeSlice addr data = Machine.writeOr e addr data
  globalAddr : ∀ (m : Memory) (var : Word), Machine.globalAddr m var = (do
    if 0x10 ≤ var ∧ var ≤ 0xff then
      let table ← Header.globalVariables m
      return table.toNat + (← differenceOr e var.toNat 0x10) * 2
    else
      .error (.invalidVariable var))
  encodedLength : ∀ (m : Memory) (addr : Nat), ZString.encodedLength m addr = (do
    differenceOr e (← ZString.stringEnd m addr) addr)
  size : ∀ {m : Memory} {version : UInt8} {p q : Nat} {i : Instruction},
    Instruction.scan m version p = .ok i q → differenceOr e q p = .ok i.size
  stretches : ∀ {m : Memory} {story : Array UInt8} {size : Nat},
    Snapshot.dynamicSize m story = .ok size →
    m.slice 0 size = stretchOr e m.bytes.toList 0 size ∧
      Snapshot.storyPart story size = stretchOr e story.toList 0 size
  compress : ∀ current story : List UInt8, Compression.compress current story =
    if current.length = story.length then do
      return Compression.encode 0 (← Compression.differencesOr e current story current.length 0)
    else
      .error (.refused (.sizesDiffer current.length story.length))
  decompress : ∀ stored story : List UInt8,
    Compression.decompress stored story = Compression.unpackOr e story stored []

/-- **None of these operations ever fails**: with whichever fault they are spelled, the definitions
are the same. -/
theorem spelledOut (e : Fault) : SpelledOut e where
  readByte := Memory.readByte_eq e
  readWord := Memory.readWord_eq e
  slice := Memory.slice_eq e
  -- A byte and a word are written as rows of one byte and of two.
  writeByte addr value := Machine.writeSlice_eq e addr [value]
  writeWord addr value := Machine.writeSlice_eq e addr [value.high, value.low]
  writeSlice := Machine.writeSlice_eq e
  globalAddr := Machine.globalAddr_eq e
  encodedLength := ZString.encodedLength_eq e
  size := Instruction.size_eq e
  stretches := Snapshot.stretches_eq e
  compress := Compression.compress_eq e
  decompress := Compression.decompress_eq e

end ZMachine
