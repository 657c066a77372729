import ZMachine.Operation.Tables
import ZMachine.Proofs.Machine.Variables

/-!
# Searching tables

A search reads the entries of a table one after the other, up to the first that equals its target.
It comes to one of three ends: it finds that entry, or has read all entries, or meets one that does
not lie in memory. Entries behind the one that it finds do not matter, in memory or not.

* `Table.Search`                   : what is looked for, and where.
* `Table.Search.Passes`, `FirstAt` : entries that the search goes past, and the one that it finds.
* `Table.Search.run_add`           : what it goes past makes no difference.
* `Table.Search.ends`              : the three ends.
* `Handler.scanTable_finds_first`  : the instruction.
-/

namespace ZMachine

open ZMachine.Action

namespace Table

/-! ## 1. Entries -/

/-- The number of bytes of an entry. -/
def width (words : Bool) : Nat :=
  if words then 2 else 1

/-- An entry can be read exactly if its bytes lie in memory. -/
theorem entry_of_le {m : Memory} {words : Bool} {addr : Nat} (h : addr + width words ≤ m.size) :
    ∃ v, entry m words addr = .ok v := by
  cases words with
  | false =>
      obtain ⟨b, hb⟩ := Memory.readByte_of_lt h
      exact ⟨b.toUInt16, except_bind_eq_ok.mpr ⟨b, hb, rfl⟩⟩
  | true => exact Memory.readWord_of_lt h

theorem entry_of_lt {m : Memory} {words : Bool} {addr : Nat} (h : m.size < addr + width words) :
    entry m words addr = .error (.addressOutOfRange addr m.size) := by
  cases words with
  | false =>
      have hb := Memory.readByte_of_le (Nat.le_of_lt_succ h)
      exact except_bind_eq_error.mpr (.inl hb)
  | true => exact Memory.readWord_of_le (Nat.le_of_lt_succ h)

/-- It is read by its own bytes alone. -/
theorem entry_agree {m m' : Memory} {words : Bool} {addr : Nat} {v : Word}
    (h : entry m words addr = .ok v) (ha : m.AgreeOn m' addr (addr + width words)) :
    entry m' words addr = .ok v := by
  cases words with
  | false =>
      obtain ⟨b, hb, hv⟩ := except_bind_eq_ok.mp h
      exact except_bind_eq_ok.mpr ⟨b, Memory.readByte_agree hb ha, hv⟩
  | true => exact Memory.readWord_agree h ha

/-! ## 2. The search -/

/-- What is looked for, whether entries are words, how far they are apart, and where the first one
stands. -/
structure Search where
  target : Word
  words : Bool
  stride : Nat
  table : Nat

namespace Search

variable {s : Search} {memory memory' : Memory} {k count : Nat}

/-- Where the entry with a number stands. -/
def place (s : Search) (k : Nat) : Nat :=
  s.table + k * s.stride

/-- The search without its first entries. -/
def drop (s : Search) (k : Nat) : Search :=
  { s with table := s.place k }

/-- What the search makes of so many entries. -/
def run (s : Search) (memory : Memory) (count : Nat) : Except Fault (Option Nat) :=
  find memory s.target s.words s.stride count s.table

/-- The search goes past the first `k` entries: each can be read, and is not the target. -/
def Passes (s : Search) (memory : Memory) (k : Nat) : Prop :=
  ∀ j < k, ∃ v, entry memory s.words (s.place j) = .ok v ∧ v ≠ s.target

/-- Entry number `k` is the first that equals the target, and the ones before it can be read. -/
structure FirstAt (s : Search) (memory : Memory) (k : Nat) : Prop where
  passes : s.Passes memory k
  found : entry memory s.words (s.place k) = .ok s.target

/-- Entry number `k` is the first that does not lie in memory, and the ones before it are not the
target. -/
structure StuckAt (s : Search) (memory : Memory) (k : Nat) : Prop where
  passes : s.Passes memory k
  outside : memory.size < s.place k + width s.words

theorem place_zero : s.place 0 = s.table := by
  unfold place
  rw [Nat.zero_mul, Nat.add_zero]

theorem place_succ : s.place (k + 1) = s.place k + s.stride := by
  unfold place
  rw [Nat.succ_mul, Nat.add_assoc]

/-- One entry more is read where the search is not at its end. -/
theorem run_drop_succ :
    (s.drop k).run memory (count + 1) = (do
      let value ← entry memory s.words (s.place k)
      if value = s.target then return some (s.place k)
      else (s.drop (k + 1)).run memory count) := by
  unfold run drop
  rw [place_succ]
  rfl

/-- **What the search goes past makes no difference.** -/
theorem run_add (h : s.Passes memory k) :
    s.run memory (k + count) = (s.drop k).run memory count := by
  induction k generalizing count with
  | zero =>
      unfold run drop
      rw [place_zero, Nat.zero_add]
  | succ k ih =>
      obtain ⟨v, hv, hne⟩ := h k (Nat.lt_succ_self k)
      rw [Nat.succ_add_eq_add_succ, ih fun j hj => h j (Nat.lt_succ_of_lt hj), run_drop_succ, hv]
      exact if_neg hne

theorem run_of_firstAt (h : s.FirstAt memory k) (hk : k < count) :
    s.run memory count = .ok (some (s.place k)) := by
  obtain ⟨n, rfl⟩ : ∃ n, count = k + (n + 1) := ⟨count - k - 1, by omega⟩
  rw [run_add h.passes, run_drop_succ, h.found]
  exact if_pos rfl

theorem run_of_passes (h : s.Passes memory count) : s.run memory count = .ok none :=
  show s.run memory (count + 0) = _ from run_add h

theorem run_of_stuckAt (h : s.StuckAt memory k) (hk : k < count) :
    s.run memory count = .error (.addressOutOfRange (s.place k) memory.size) := by
  obtain ⟨n, rfl⟩ : ∃ n, count = k + (n + 1) := ⟨count - k - 1, by omega⟩
  rw [run_add h.passes, run_drop_succ, entry_of_lt h.outside]
  rfl

/-- **The three ends of a search.** -/
theorem ends (s : Search) (memory : Memory) (count : Nat) :
    (∃ k < count, s.FirstAt memory k) ∨ s.Passes memory count ∨
      ∃ k < count, s.StuckAt memory k := by
  induction count with
  | zero => exact .inr (.inl nofun)
  | succ count ih =>
      rcases ih with ⟨k, hk, h⟩ | h | ⟨k, hk, h⟩
      · exact .inl ⟨k, Nat.lt_succ_of_lt hk, h⟩
      · -- The search has come to the last entry, which decides.
        by_cases hin : s.place count + width s.words ≤ memory.size
        · obtain ⟨v, hv⟩ := entry_of_le hin
          by_cases heq : v = s.target
          · exact .inl ⟨count, Nat.lt_succ_self count, h, heq ▸ hv⟩
          · refine .inr (.inl fun j hj => ?_)
            rcases Nat.lt_succ_iff_lt_or_eq.mp hj with hlt | rfl
            · exact h j hlt
            · exact ⟨v, hv, heq⟩
        · exact .inr (.inr ⟨count, Nat.lt_succ_self count, h, Nat.lt_of_not_le hin⟩)
      · exact .inr (.inr ⟨k, Nat.lt_succ_of_lt hk, h⟩)

/-- The entry is found by its bytes and those of the entries before it. -/
theorem FirstAt.agree (h : s.FirstAt memory k)
    (ha : ∀ j ≤ k, memory.AgreeOn memory' (s.place j) (s.place j + width s.words)) :
    s.FirstAt memory' k where
  passes j hj := by
    obtain ⟨v, hv, hne⟩ := h.passes j hj
    exact ⟨v, entry_agree hv (ha j (Nat.le_of_lt hj)), hne⟩
  found := entry_agree h.found (ha k (Nat.le_refl k))

end Search

end Table

/-! ## 3. The instruction -/

namespace Handler

open Machine

variable {i : Instruction} {var : UInt8} {target table count : Word} {rest : List Word}
  {m : Machine}

/-- The search that the operands ask for. Bit 7 of the form says that entries are words, the other
bits how far they are apart. -/
def searchFor (target table form : Word) : Table.Search where
  target := target
  words := form &&& 0x80 != 0
  stride := (form &&& 0x7f).toNat
  table := table.toNat

/-- The instruction writes the value to its variable and branches on the condition. -/
def Reports (i : Instruction) (var : UInt8) (args : List Word) (m : Machine) (value : Word)
    (condition : Bool) : Prop :=
  ∃ m', Stored var.toUInt16 value m m' ∧ scanTable i args m = branch i.branch condition m'

theorem scanTable_eq (i : Instruction) (target table count : Word) (rest : List Word)
    (m : Machine) :
    scanTable i (target :: table :: count :: rest) m = (do
      let found ← (searchFor target table (rest.getD 0 wordTableForm)).run m.memory count.toNat
      storeResult i.store (UInt16.ofNat (found.getD 0))
      branch i.branch found.isSome : Action Machine Flow) m :=
  rfl

/-- A search that comes to an end is reported if the variable can be written. -/
theorem reports_of_run {found : Option Nat} (hstore : i.store = some var)
    (hcell : HasCell (m.stack.length < m.stackLimit) m var.toUInt16)
    (h : (searchFor target table (rest.getD 0 wordTableForm)).run m.memory count.toNat =
      .ok found) :
    Reports i var (target :: table :: count :: rest) m (UInt16.ofNat (found.getD 0))
      found.isSome := by
  obtain ⟨m', hstored, hwrite⟩ :=
    storeResult_of_hasCell (UInt16.ofNat (found.getD 0)) hstore hcell
  refine ⟨m', hstored, ?_⟩
  rw [scanTable_eq, h]
  exact bind_of_ok hwrite

/-- **The instruction finds the first entry that equals its target.** It writes where that stands,
cut to 16 bits, and branches as if the condition holds, even at the address 0. Nothing is read
behind that entry: other bytes there, another end of memory or of the table make no difference.
Where it has read all entries it writes 0, and the condition fails. Otherwise it meets an entry that
does not lie in memory, and fails there before it writes anything. -/
theorem scanTable_finds_first (i : Instruction) (var : UInt8) (target table count : Word)
    (rest : List Word) (m : Machine) (hstore : i.store = some var)
    (hcell : HasCell (m.stack.length < m.stackLimit) m var.toUInt16) :
    let s := searchFor target table (rest.getD 0 wordTableForm)
    (∀ k < count.toNat, s.FirstAt m.memory k →
      Reports i var (target :: table :: count :: rest) m (UInt16.ofNat (s.place k)) true ∧
      ∀ m' count', k < count'.toNat →
        HasCell (m'.stack.length < m'.stackLimit) m' var.toUInt16 →
        (∀ j ≤ k, m.memory.AgreeOn m'.memory (s.place j) (s.place j + Table.width s.words)) →
        Reports i var (target :: table :: count' :: rest) m' (UInt16.ofNat (s.place k)) true) ∧
    (s.Passes m.memory count.toNat →
      Reports i var (target :: table :: count :: rest) m 0 false) ∧
    (¬ (∃ k < count.toNat, s.FirstAt m.memory k) → ¬ s.Passes m.memory count.toNat →
      ∃ k < count.toNat, s.StuckAt m.memory k ∧
        scanTable i (target :: table :: count :: rest) m =
          .error (.addressOutOfRange (s.place k) m.memory.size) m) := by
  intro s
  refine ⟨fun k hk h => ⟨?_, ?_⟩, fun h => ?_, fun hfirst hpasses => ?_⟩
  · exact reports_of_run hstore hcell (Table.Search.run_of_firstAt h hk)
  · intro m' count' hk' hcell' ha
    exact reports_of_run hstore hcell' (Table.Search.run_of_firstAt (h.agree ha) hk')
  · exact reports_of_run hstore hcell (Table.Search.run_of_passes h)
  · rcases s.ends m.memory count.toNat with h | h | ⟨k, hk, h⟩
    · exact absurd h hfirst
    · exact absurd h hpasses
    · refine ⟨k, hk, h, ?_⟩
      have hrun := Table.Search.run_of_stuckAt h hk
      rw [scanTable_eq]
      exact lift_bind_eq_error.mpr (.inl ⟨hrun, rfl⟩)

/-- A machine with two bytes, in a routine with one local. -/
def withTwoBytes : Machine where
  memory := ⟨#[7, 9]⟩
  version := 5
  pc := 0
  stack := []
  frames := [Frame.main [5]]
  stackLimit := 0

/-- A search that writes to the local, and branches to the second byte if it has found something. -/
def searchIntoLocal : Instruction where
  opcode := ⟨.var, 0x17⟩
  form := .variable
  operands := [⟨.small, 7⟩, ⟨.small, 0⟩, ⟨.small, 3⟩, ⟨.small, 1⟩]
  store := some 1
  branch := some ⟨true, 3⟩
  textAddr := none
  size := 8

/-- The machine after a search that has written the value to the local and goes on at `pc`. -/
def searched (value : Word) (pc : Nat) : Machine :=
  { withTwoBytes with pc, frames := [Frame.main [value]] }

/-- Of three bytes at 0, of which two are there, the first is found at 0 although the third is
missing, and the search branches. Of two bytes none is 8, and it goes on; a third is missing. Both
bytes together are a word. -/
theorem scanTable_withTwoBytes :
    (Reports searchIntoLocal 1 [7, 0, 3, 1] withTwoBytes 0 true ∧
        scanTable searchIntoLocal [7, 0, 3, 1] withTwoBytes = .ok .branched (searched 0 1)) ∧
      (Reports searchIntoLocal 1 [9, 0, 2, 1] withTwoBytes 1 true ∧
        scanTable searchIntoLocal [9, 0, 2, 1] withTwoBytes = .ok .branched (searched 1 1)) ∧
      (Reports searchIntoLocal 1 [8, 0, 2, 1] withTwoBytes 0 false ∧
        scanTable searchIntoLocal [8, 0, 2, 1] withTwoBytes = .ok .next (searched 0 0)) ∧
      scanTable searchIntoLocal [8, 0, 3, 1] withTwoBytes =
        .error (.addressOutOfRange 2 2) withTwoBytes ∧
      Reports searchIntoLocal 1 [0x0709, 0, 1] withTwoBytes 0 true := by
  have hcell : HasCell (withTwoBytes.stack.length < withTwoBytes.stackLimit) withTwoBytes
      (1 : UInt8).toUInt16 :=
    .inr (.inl ⟨by decide, by decide, Frame.main [5], [], rfl, by decide⟩)
  have hnine : (searchFor 9 0 1).FirstAt withTwoBytes.memory 1 :=
    ⟨fun | 0, _ => ⟨7, rfl, by decide⟩, rfl⟩
  have hpasses : (searchFor 8 0 1).Passes withTwoBytes.memory 2
    | 0, _ => ⟨7, rfl, by decide⟩
    | 1, _ => ⟨9, rfl, by decide⟩
  refine ⟨⟨?_, rfl⟩, ⟨?_, rfl⟩, ⟨?_, rfl⟩, ?_, ?_⟩
  · exact ((scanTable_finds_first searchIntoLocal 1 7 0 3 [1] _ rfl hcell).1 0 (by decide)
      ⟨nofun, rfl⟩).1
  · exact ((scanTable_finds_first searchIntoLocal 1 9 0 2 [1] _ rfl hcell).1 1 (by decide) hnine).1
  · exact (scanTable_finds_first searchIntoLocal 1 8 0 2 [1] _ rfl hcell).2.1 hpasses
  · obtain ⟨-, -, hstuck⟩ := scanTable_finds_first searchIntoLocal 1 8 0 3 [1] _ rfl hcell
    have hfirst : ¬ ∃ k < 3, (searchFor 8 0 1).FirstAt withTwoBytes.memory k := by
      intro h
      obtain ⟨k, hk, h⟩ := h
      cases Table.Search.run_of_firstAt h hk
    have hall : ¬ (searchFor 8 0 1).Passes withTwoBytes.memory 3 := by
      intro h
      cases Table.Search.run_of_passes h
    obtain ⟨k, hk, hat, hfails⟩ := hstuck hfirst hall
    have hout : 2 < 0 + k * 1 + 1 := hat.outside
    have hk : k < 3 := hk
    obtain rfl : k = 2 := by omega
    exact hfails
  · exact ((scanTable_finds_first searchIntoLocal 1 0x0709 0 1 [] _ rfl hcell).1 0 (by decide)
      ⟨nofun, rfl⟩).1

end Handler

end ZMachine
