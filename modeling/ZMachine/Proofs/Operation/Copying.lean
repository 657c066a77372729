import ZMachine.Operation.Tables
import ZMachine.Proofs.Machine.Quiet
import ZMachine.Proofs.Memory

/-!
# Copying tables

A table is copied in one of three ways. Without a destination it is cleared. With one it is read
whole before anything is written, or it is copied byte by byte, lowest first. The last two come to
the same unless the destination starts inside the source: then the copy reads what it has written,
and the bytes in front of the destination are repeated all through it.

* `Table.origin`                : which byte of the source a copy byte by byte puts at a place.
* `Table.Fits`, `Table.Overtakes` : tables that lie in memory, and a destination inside its source.
* `Table.Copied`                : what a copy makes of memory.
* `Table.copy_of_fits`, `copy_of_not_fits` : which copies succeed, and what they do.
* `Handler.copyTable_modes`     : the instruction.
-/

namespace ZMachine

open ZMachine.Action

namespace Table

variable {source dest count : Nat} {amount : Int} {m m' : Machine}

/-! ## 1. Byte by byte -/

/-- Where the byte comes from that a copy byte by byte puts at the place `k` of its destination.
From a destination behind the source on, the copy reads what it has written. -/
def origin (source dest k : Nat) : Nat :=
  if source < dest then source + k % (dest - source) else source + k

theorem origin_zero : origin source dest 0 = source := by
  unfold origin
  rw [Nat.zero_mod, Nat.add_zero, ite_self]

/-- Nothing is read again that has been written if the destination does not start inside the
source. -/
theorem origin_eq_add {k : Nat} (hk : k < count) (h : source < dest → source + count ≤ dest) :
    origin source dest k = source + k := by
  unfold origin
  split
  · rename_i hlt
    have hle := h hlt
    rw [Nat.mod_eq_of_lt (by omega)]
  · rfl

/-- After the first byte the rest of the copy starts one further. Where it comes to read the byte
that was written, that is the first one of the source. -/
theorem getElem?_origin_succ {memory : Memory} {b : UInt8} (hb : memory.bytes[source]? = some b)
    (hd : dest < memory.size) (k : Nat) :
    (memory.setByte dest b).bytes[origin (source + 1) (dest + 1) k]? =
      memory.bytes[origin source dest (k + 1)]? := by
  unfold origin
  by_cases hlt : source < dest
  · have hmod : (k % (dest - source) + 1) % (dest - source) = (k + 1) % (dest - source) :=
      Nat.mod_add_mod ..
    have hk : k % (dest - source) < dest - source := Nat.mod_lt _ (by omega)
    rw [if_pos hlt, if_pos (by omega), Nat.add_sub_add_right]
    by_cases hlast : k % (dest - source) + 1 = dest - source
    · have hfirst : (k + 1) % (dest - source) = 0 := by rw [← hmod, hlast, Nat.mod_self]
      have haddr : source + 1 + k % (dest - source) = dest := by omega
      rw [hfirst, haddr]
      exact (Array.getElem?_setIfInBounds_self_of_lt hd).trans hb.symm
    · have hnext : (k + 1) % (dest - source) = k % (dest - source) + 1 := by
        rw [← hmod, Nat.mod_eq_of_lt (by omega)]
      rw [hnext, Memory.getElem?_setByte_of_ne (by omega)]
      exact congrArg (memory.bytes[·]?) (by omega)
  · rw [if_neg hlt, if_neg (by omega), Memory.getElem?_setByte_of_ne (by omega)]
    exact congrArg (memory.bytes[·]?) (by omega)

/-- A stretch of which the first byte is written and then the others. -/
theorem rewritten_succ {memory memory' : Memory} {b : UInt8} (hb : memory.bytes[source]? = some b)
    (hd : dest < memory.size)
    (h : (memory.setByte dest b).Rewritten memory' (dest + 1) count fun k =>
      (memory.setByte dest b).bytes[origin (source + 1) (dest + 1) k]?) :
    memory.Rewritten memory' dest (count + 1) fun k => memory.bytes[origin source dest k]? where
  size := h.size.trans (Memory.size_setByte ..)
  written k hk := by
    cases k with
    | zero =>
        have hfirst := h.others dest (.inl (Nat.lt_succ_self dest))
        rw [origin_zero, hb]
        exact hfirst.trans (Array.getElem?_setIfInBounds_self_of_lt hd)
    | succ k =>
        rw [← getElem?_origin_succ hb hd, ← h.written k (by omega)]
        exact congrArg (memory'.bytes[·]?) (by omega)
  others a ha := by
    rw [h.others a (by omega), Memory.getElem?_setByte_of_ne (by omega)]

/-- **A copy byte by byte**, of tables that lie in memory. -/
theorem copyForward_of_fits (hs : source + count ≤ m.memory.size) (hd : dest + count ≤ m.memory.size) :
    ∃ memory, copyForward count source dest m = .ok () { m with memory } ∧
      m.memory.Rewritten memory dest count fun k => m.memory.bytes[origin source dest k]? := by
  induction count generalizing source dest m with
  | zero => exact ⟨m.memory, rfl, rfl, nofun, fun _ _ => rfl⟩
  | succ count ih =>
      obtain ⟨b, hread⟩ : ∃ b, m.memory.readByte source = .ok b := Memory.readByte_of_lt (by omega)
      have hb := Memory.readByte_eq_ok.mp hread
      let q : Machine := { m with memory := m.memory.setByte dest b }
      have hwrite : Machine.writeByte dest b m = .ok () q :=
        Machine.update_eq_ok.mpr ⟨by omega, rfl⟩
      have hsize : q.memory.size = m.memory.size := Memory.size_setByte ..
      have hs' : source + 1 + count ≤ q.memory.size := by omega
      have hd' : dest + 1 + count ≤ q.memory.size := by omega
      obtain ⟨memory, hcopy, hrewritten⟩ := ih hs' hd'
      refine ⟨memory, ?_, rewritten_succ hb (by omega) hrewritten⟩
      unfold copyForward
      rw [get_bind, lift_bind_eq_ok]
      exact ⟨b, hread, bind_eq_ok.mpr ⟨(), q, hwrite, hcopy⟩⟩

/-- One that leaves memory fails. -/
theorem copyForward_of_not_fits (hpos : 0 < count)
    (h : ¬ (source + count ≤ m.memory.size ∧ dest + count ≤ m.memory.size)) :
    ∃ e m', copyForward count source dest m = .error e m' ∧ e.IsOutOfRange := by
  induction count generalizing source dest m with
  | zero => omega
  | succ count ih =>
      unfold copyForward
      rw [get_bind]
      by_cases hs : source < m.memory.size
      · obtain ⟨b, hread⟩ := Memory.readByte_of_lt hs
        by_cases hd : dest < m.memory.size
        · let q : Machine := { m with memory := m.memory.setByte dest b }
          have hwrite : Machine.writeByte dest b m = .ok () q :=
            Machine.update_eq_ok.mpr ⟨hd, rfl⟩
          have hsize : q.memory.size = m.memory.size := Memory.size_setByte ..
          have hpos' : 0 < count := by
            rcases Nat.eq_zero_or_pos count with rfl | hpos'
            · exact absurd ⟨hs, hd⟩ h
            · exact hpos'
          have h' : ¬ (source + 1 + count ≤ q.memory.size ∧ dest + 1 + count ≤ q.memory.size) := by
            omega
          obtain ⟨e, m', hcopy, he⟩ := ih hpos' h'
          refine ⟨e, m', lift_bind_eq_error.mpr (.inr ⟨b, hread, ?_⟩), he⟩
          exact bind_eq_error.mpr (.inr ⟨(), q, hwrite, hcopy⟩)
        · have hwrite : Machine.writeByte dest b m =
              .error (.addressOutOfRange dest m.memory.size) m :=
            Machine.update_of_lt (by omega)
          refine ⟨.addressOutOfRange dest m.memory.size, m, ?_, ⟨_, _, rfl⟩⟩
          exact lift_bind_eq_error.mpr (.inr ⟨b, hread, bind_eq_error.mpr (.inl hwrite)⟩)
      · have hread := Memory.readByte_of_le (Nat.le_of_not_lt hs)
        exact ⟨_, m, lift_bind_eq_error.mpr (.inl ⟨hread, rfl⟩), ⟨_, _, rfl⟩⟩

/-! ## 2. The three ways -/

/-- The first byte that a copy writes. Without a destination that is the first of the source. -/
def start (source dest : Nat) : Nat :=
  if dest = 0 then source else dest

/-- The bytes that are read and those that are written lie in memory. -/
def Fits (memory : Memory) (source dest length : Nat) : Prop :=
  source + length ≤ memory.size ∧ start source dest + length ≤ memory.size

instance (memory : Memory) (source dest length : Nat) : Decidable (Fits memory source dest length) :=
  inferInstanceAs (Decidable (_ ∧ _))

/-- The destination starts inside the source, behind its first byte. -/
def Overtakes (source dest length : Nat) : Prop :=
  source < dest ∧ dest < source + length

instance (source dest length : Nat) : Decidable (Overtakes source dest length) :=
  inferInstanceAs (Decidable (_ ∧ _))

/-- What a copy makes of memory. A negative amount asks for a copy byte by byte. -/
structure Copied (source dest : Nat) (amount : Int) (memory memory' : Memory) : Prop where
  size : memory'.size = memory.size
  /-- Nothing changes outside the destination. -/
  others : ∀ a, a < start source dest ∨ start source dest + amount.natAbs ≤ a →
    memory'.bytes[a]? = memory.bytes[a]?
  /-- Without a destination the source is cleared. -/
  cleared : dest = 0 → ∀ k < amount.natAbs, memory'.bytes[source + k]? = some 0
  /-- What is read whole is copied, whatever the overlap. -/
  whole : dest ≠ 0 → 0 ≤ amount →
    ∀ k < amount.natAbs, memory'.bytes[dest + k]? = memory.bytes[source + k]?
  /-- So is what is copied byte by byte, as long as the copy does not read what it has written. -/
  forward : dest ≠ 0 → amount < 0 → ¬ Overtakes source dest amount.natAbs →
    ∀ k < amount.natAbs, memory'.bytes[dest + k]? = memory.bytes[source + k]?
  /-- Otherwise the bytes in front of the destination are repeated. -/
  repeated : dest ≠ 0 → amount < 0 → Overtakes source dest amount.natAbs →
    ∀ k < amount.natAbs, memory'.bytes[dest + k]? = memory.bytes[source + k % (dest - source)]?

/-- The byte that a copy puts at the place `k` of its destination. -/
def content (memory : Memory) (source dest : Nat) (amount : Int) (k : Nat) : Option UInt8 :=
  if dest = 0 then some 0
  else if amount < 0 then memory.bytes[origin source dest k]?
  else memory.bytes[source + k]?

theorem copied_of_rewritten {memory memory' : Memory}
    (h : memory.Rewritten memory' (start source dest) amount.natAbs
      (content memory source dest amount)) : Copied source dest amount memory memory' where
  size := h.size
  others := h.others
  cleared h₀ k hk := by
    have hw := h.written k hk
    unfold start content at hw
    rwa [if_pos h₀, if_pos h₀] at hw
  whole h₀ hle k hk := by
    have hw := h.written k hk
    unfold start content at hw
    rwa [if_neg h₀, if_neg h₀, if_neg (Int.not_lt.mpr hle)] at hw
  forward h₀ hlt hapart k hk := by
    have hw := h.written k hk
    unfold start content at hw
    unfold Overtakes at hapart
    rwa [if_neg h₀, if_neg h₀, if_pos hlt, origin_eq_add hk (by omega)] at hw
  repeated h₀ hlt hinside k hk := by
    have hw := h.written k hk
    unfold start content origin at hw
    rwa [if_neg h₀, if_neg h₀, if_pos hlt, if_pos hinside.1] at hw

/-- Of a destination that does not start inside the source both ways make the same. -/
theorem content_neg {memory : Memory} {k : Nat} (h : ¬ Overtakes source dest amount.natAbs)
    (hk : k < amount.natAbs) :
    content memory source dest (-amount) k = content memory source dest amount k := by
  have horigin : origin source dest k = source + k := by
    unfold Overtakes at h
    exact origin_eq_add hk (by omega)
  unfold content
  rw [horigin, ite_self, ite_self]

/-- A row of bytes read from memory. -/
theorem slice_of_le {memory : Memory} {addr length : Nat} (h : addr + length ≤ memory.size) :
    ∃ row, memory.slice addr length = .ok row ∧ row.length = length ∧
      ∀ k < length, row[k]? = memory.bytes[addr + k]? := by
  have hmin : min (addr + length) memory.bytes.size - addr = length := by
    have h' : addr + length ≤ memory.bytes.size := h
    omega
  refine ⟨_, except_bind_eq_ok.mpr ⟨(), Machine.check_eq_ok.mpr h, rfl⟩, ?_, fun k hk => ?_⟩
  · rw [Array.length_toList, Array.size_extract, hmin]
  · rw [Array.getElem?_toList, Array.getElem?_extract, hmin, if_pos hk]

/-- **A copy of tables that lie in memory succeeds**, and changes memory alone. -/
theorem copy_of_fits (h : Fits m.memory source dest amount.natAbs) :
    ∃ memory, copy source dest amount m = .ok () { m with memory } ∧
      m.memory.Rewritten memory (start source dest) amount.natAbs
        (content m.memory source dest amount) := by
  obtain ⟨hs, hd⟩ := h
  unfold copy content start at *
  by_cases h₀ : dest = 0
  · simp only [if_pos h₀] at *
    have hlength : (List.replicate amount.natAbs (0 : UInt8)).length = amount.natAbs :=
      List.length_replicate
    have hrow := Memory.rewritten_overwrite (hlength.symm ▸ hs)
    rw [hlength] at hrow
    refine ⟨_, Machine.update_eq_ok.mpr ⟨by rwa [hlength], rfl⟩, { hrow with written := ?_ }⟩
    intro k hk
    rw [hrow.written k hk, List.getElem?_replicate_of_lt hk]
  · simp only [if_neg h₀] at *
    by_cases hlt : amount < 0
    · simp only [if_pos hlt]
      exact copyForward_of_fits hs hd
    · simp only [if_neg hlt]
      obtain ⟨row, hslice, hlength, hbytes⟩ := slice_of_le hs
      have hrow := Memory.rewritten_overwrite (hlength.symm ▸ hd)
      rw [hlength] at hrow
      refine ⟨_, ?_, { hrow with written := fun k hk => (hrow.written k hk).trans (hbytes k hk) }⟩
      rw [get_bind, lift_bind_eq_ok]
      exact ⟨row, hslice, Machine.update_eq_ok.mpr ⟨by rwa [hlength], rfl⟩⟩

/-- **One of tables that do not fails**, and changes nothing unless it was made byte by byte. -/
theorem copy_of_not_fits (h : ¬ Fits m.memory source dest amount.natAbs) :
    ∃ e m', copy source dest amount m = .error e m' ∧ e.IsOutOfRange ∧
      (dest = 0 ∨ 0 ≤ amount → m' = m) := by
  unfold copy
  unfold Fits start at h
  by_cases h₀ : dest = 0
  · simp only [if_pos h₀] at h ⊢
    refine ⟨_, m, Machine.update_of_lt ?_, ⟨_, _, rfl⟩, fun _ => rfl⟩
    rw [List.length_replicate]
    omega
  · simp only [if_neg h₀] at h ⊢
    by_cases hlt : amount < 0
    · simp only [if_pos hlt]
      obtain ⟨e, m', hcopy, he⟩ := copyForward_of_not_fits (by omega) h
      exact ⟨e, m', hcopy, he, fun hmode => absurd hmode (by omega)⟩
    · simp only [if_neg hlt]
      rw [get_bind]
      by_cases hs : source + amount.natAbs ≤ m.memory.size
      · obtain ⟨row, hslice, hlength, -⟩ := slice_of_le hs
        have hwrite : Machine.writeSlice dest row m =
            .error (.addressOutOfRange dest m.memory.size) m :=
          Machine.update_of_lt (by omega)
        exact ⟨_, m, lift_bind_eq_error.mpr (.inr ⟨row, hslice, hwrite⟩), ⟨_, _, rfl⟩, fun _ => rfl⟩
      · have hslice : m.memory.slice source amount.natAbs =
            .error (.addressOutOfRange source m.memory.size) :=
          except_bind_eq_error.mpr (.inl (if_neg hs))
        exact ⟨_, m, lift_bind_eq_error.mpr (.inl ⟨hslice, rfl⟩), ⟨_, _, rfl⟩, fun _ => rfl⟩

/-- **Byte by byte or whole makes no difference** where the destination does not start inside the
source. -/
theorem copy_neg (h : ¬ Overtakes source dest amount.natAbs) :
    copy source dest (-amount) m = .ok () m' ↔ copy source dest amount m = .ok () m' := by
  have habs : (-amount).natAbs = amount.natAbs := Int.natAbs_neg amount
  by_cases hfits : Fits m.memory source dest amount.natAbs
  · obtain ⟨memory, hcopy, hrewritten⟩ := copy_of_fits hfits
    obtain ⟨memory', hcopy', hrewritten'⟩ := copy_of_fits (habs.symm ▸ hfits)
    rw [habs] at hrewritten'
    have hsame : m.memory.Rewritten memory' (start source dest) amount.natAbs
        (content m.memory source dest amount) :=
      { hrewritten' with
        written := fun k hk => (hrewritten'.written k hk).trans (content_neg h hk) }
    rw [hcopy, hcopy', hsame.unique hrewritten]
  · obtain ⟨e, q, hcopy, -⟩ := copy_of_not_fits hfits
    obtain ⟨e', q', hcopy', -⟩ := copy_of_not_fits (habs.symm ▸ hfits)
    rw [hcopy, hcopy']
    constructor
    · intro hr
      cases hr
    · intro hr
      cases hr

end Table

/-! ## 3. The instruction -/

namespace Handler

variable {m m' : Machine}

/-- The amount that is asked for by the negative word. -/
theorem toInt_neg (size : Word) :
    (-size).toInt16.toInt = -size.toInt16.toInt ∨ -size = size := by
  have hle := Int16.le_toInt size.toInt16
  have hlt := Int16.toInt_lt size.toInt16
  by_cases hmin : size = 0x8000
  · exact .inr (by rw [hmin]; decide)
  · have hne : size.toInt16.toInt ≠ -2 ^ 15 := by
      intro h
      have hs : size.toInt16 = (0x8000 : Word).toInt16 := Int16.toInt_inj.mp h
      exact hmin (congrArg Int16.toUInt16 hs)
    refine .inl ?_
    rw [UInt16.toInt16_neg, Int16.toInt_neg]
    exact Int.bmod_eq_of_le (by omega) (by omega)

theorem copyTable_eq (i : Instruction) (source dest size : Word) (rest : List Word) (m : Machine) :
    copyTable i (source :: dest :: size :: rest) m = (do
      Table.copy source.toNat dest.toNat size.toInt16.toInt
      return .next : Action Machine Flow) m :=
  rfl

theorem copyTable_eq_ok {i : Instruction} {source dest size : Word} {rest : List Word} {flow : Flow} :
    copyTable i (source :: dest :: size :: rest) m = .ok flow m' ↔
      Table.copy source.toNat dest.toNat size.toInt16.toInt m = .ok () m' ∧ flow = .next := by
  rw [copyTable_eq]
  rw [bind_eq_ok]
  constructor
  · intro h
    obtain ⟨⟨⟩, q, hcopy, hq⟩ := h
    cases hq
    exact ⟨hcopy, rfl⟩
  · intro h
    obtain ⟨hcopy, rfl⟩ := h
    exact ⟨(), m', hcopy, rfl⟩

/-- **What each way of copying promises it does, for every overlap.** A copy succeeds exactly if its
tables lie in memory. It then changes memory alone, and there its destination alone, to what
`Copied` says of the way it was made. Where it fails, nothing has changed unless it was made byte by
byte. And where the destination does not start inside the source, the negative size makes no
difference. -/
theorem copyTable_modes (i : Instruction) (source dest size : Word) (rest : List Word) (m : Machine) :
    let amount := size.toInt16.toInt
    (Table.Fits m.memory source.toNat dest.toNat amount.natAbs →
      ∃ memory, copyTable i (source :: dest :: size :: rest) m = .ok .next { m with memory } ∧
        Table.Copied source.toNat dest.toNat amount m.memory memory) ∧
    (¬ Table.Fits m.memory source.toNat dest.toNat amount.natAbs →
      ∃ e m', copyTable i (source :: dest :: size :: rest) m = .error e m' ∧ e.IsOutOfRange ∧
        (dest = 0 ∨ 0 ≤ amount → m' = m)) ∧
    (¬ Table.Overtakes source.toNat dest.toNat amount.natAbs → ∀ flow m',
      copyTable i (source :: dest :: -size :: rest) m = .ok flow m' ↔
        copyTable i (source :: dest :: size :: rest) m = .ok flow m') := by
  intro amount
  refine ⟨fun h => ?_, fun h => ?_, fun h flow m' => ?_⟩
  · obtain ⟨memory, hcopy, hrewritten⟩ := Table.copy_of_fits h
    exact ⟨memory, copyTable_eq_ok.mpr ⟨hcopy, rfl⟩, Table.copied_of_rewritten hrewritten⟩
  · obtain ⟨e, m', hcopy, he, hsame⟩ := Table.copy_of_not_fits h
    refine ⟨e, m', ?_, he, fun hmode => hsame (hmode.imp_left (congrArg UInt16.toNat))⟩
    rw [copyTable_eq]
    exact bind_eq_error.mpr (.inl hcopy)
  · rw [copyTable_eq_ok, copyTable_eq_ok]
    rcases toInt_neg size with hneg | hneg
    · rw [hneg, Table.copy_neg h]
    · rw [hneg]

/-- A machine with a row of ten bytes. -/
def withRow : Machine where
  memory := ⟨#[0, 1, 2, 3, 4, 5, 6, 7, 8, 9]⟩
  version := 5
  pc := 0
  stack := []
  frames := [Frame.main []]
  stackLimit := 0

/-- Copies a table whose addresses and size are operands. -/
def copyOfThree : Instruction where
  opcode := ⟨.var, 0x1d⟩
  form := .variable
  operands := [⟨.small, 1⟩, ⟨.small, 3⟩, ⟨.large, -5⟩]
  store := none
  branch := none
  textAddr := none
  size := 6

/-- Byte by byte to two places further on, the first two bytes are repeated. Six bytes from 5 on
would leave memory, and since they are read whole nothing has changed by then. -/
theorem copyTable_withRow :
    (∃ memory, copyTable copyOfThree [1, 3, -5] withRow = .ok .next { withRow with memory } ∧
      ∀ k < 5, memory.bytes[3 + k]? = some (if k % 2 = 0 then 1 else 2)) ∧
    ∃ e, copyTable copyOfThree [1, 5, 6] withRow = .error e withRow := by
  constructor
  · obtain ⟨hfits, -, -⟩ := copyTable_modes copyOfThree 1 3 (-5) [] withRow
    obtain ⟨memory, hcopy, hcopied⟩ := hfits (by decide)
    have hbytes : ∀ k < 5, withRow.memory.bytes[1 + k % 2]? = some (if k % 2 = 0 then 1 else 2) := by
      decide
    refine ⟨memory, hcopy, fun k hk => ?_⟩
    exact (hcopied.repeated (by decide) (by decide) (by decide) k hk).trans (hbytes k hk)
  · obtain ⟨-, hfails, -⟩ := copyTable_modes copyOfThree 1 5 6 [] withRow
    obtain ⟨e, m', hcopy, -, hsame⟩ := hfails (by decide)
    rw [hsame (.inr (by decide))] at hcopy
    exact ⟨e, hcopy⟩

end Handler

end ZMachine
