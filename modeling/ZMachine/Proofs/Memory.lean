import ZMachine.Memory

/-!
# Stretches of memory

Two memories that hold the same bytes on a stretch give the same answers to reads that stay in it,
and a write changes nothing outside the stretch it writes to.

* `Memory.AgreeOn`, `Memory.truncate` : equal stretches of two memories, and memories cut short.
* `Memory.getElem?_setByte_of_ne` and its like : the bytes around a write.
* `Memory.getElem?_overwrite`         : the bytes of a write.
* `Memory.eq_of_agreeOn`              : memories that agree everywhere.
* `Memory.readWord_eq_ok_iff`, `Memory.readWord_setWord`, `Memory.setWord_eq_setByte` : words, which
  are two bytes each.
* `Memory.Rewritten`                  : memories that differ in one stretch, and what it then holds.
-/

namespace ZMachine

/-! ## 1. Equal stretches of memory -/

namespace Memory

/-- The two memories hold the same bytes from `first` on and below `stop`. -/
def AgreeOn (m m' : Memory) (first stop : Nat) : Prop :=
  ∀ addr, first ≤ addr → addr < stop → m'.bytes[addr]? = m.bytes[addr]?

/-- The memory without the bytes from `length` on. -/
def truncate (m : Memory) (length : Nat) : Memory :=
  ⟨m.bytes.extract 0 length⟩

variable {m m' : Memory} {first stop : Nat}

theorem AgreeOn.mono {first' stop' : Nat} (h : AgreeOn m m' first stop) (hf : first ≤ first')
    (hs : stop' ≤ stop) : AgreeOn m m' first' stop' :=
  fun addr h₁ h₂ => h addr (by omega) (by omega)

theorem AgreeOn.symm (h : AgreeOn m m' first stop) : AgreeOn m' m first stop :=
  fun addr h₁ h₂ => (h addr h₁ h₂).symm

theorem size_truncate_le (m : Memory) (length : Nat) : (m.truncate length).size ≤ length := by
  simp only [truncate, size, Array.size_extract]
  omega

theorem agreeOn_truncate (m : Memory) (first length : Nat) :
    AgreeOn m (m.truncate length) first length := by
  intro addr _ h
  simp only [truncate, Array.getElem?_extract, Nat.zero_add]
  split
  · rfl
  · rw [Array.getElem?_eq_none (by omega)]

theorem readByte_eq_ok {addr : Nat} {b : UInt8} :
    m.readByte addr = .ok b ↔ m.bytes[addr]? = some b := by
  unfold readByte
  cases m.bytes[addr]? with
  | none => exact ⟨nofun, nofun⟩
  | some b' =>
      constructor
      · intro h
        cases h
        rfl
      · intro h
        cases h
        rfl

theorem readByte_agree {addr : Nat} {b : UInt8} (h : m.readByte addr = .ok b)
    (ha : AgreeOn m m' addr (addr + 1)) : m'.readByte addr = .ok b := by
  unfold readByte at h ⊢
  rw [ha addr (by omega) (by omega)]
  split at h
  · exact h
  · cases h

theorem readWord_agree {addr : Nat} {w : Word} (h : m.readWord addr = .ok w)
    (ha : AgreeOn m m' addr (addr + 2)) : m'.readWord addr = .ok w := by
  unfold readWord at h ⊢
  rw [ha addr (by omega) (by omega), ha (addr + 1) (by omega) (by omega)]
  split at h
  · exact h
  · cases h

/-- A word is read by its two bytes, and its fault names the size of memory. -/
theorem readWord_congr {addr : Nat} (hs : m'.size = m.size)
    (h₀ : m'.bytes[addr]? = m.bytes[addr]?) (h₁ : m'.bytes[addr + 1]? = m.bytes[addr + 1]?) :
    m'.readWord addr = m.readWord addr := by
  unfold readWord
  rw [h₀, h₁, hs]

end Memory

/-- The fault of an access beyond the end of memory. -/
def Fault.IsOutOfRange (e : Fault) : Prop :=
  ∃ addr size, e = .addressOutOfRange addr size

namespace Memory

variable {m : Memory} {addr : Nat} {e : Fault}

theorem readByte_error (h : m.readByte addr = .error e) : e.IsOutOfRange := by
  unfold readByte at h
  split at h
  · cases h
  · cases h
    exact ⟨_, _, rfl⟩

theorem readWord_error (h : m.readWord addr = .error e) : e.IsOutOfRange := by
  unfold readWord at h
  split at h
  · cases h
  · cases h
    exact ⟨_, _, rfl⟩

/-- A byte can be read where it lies in memory. -/
theorem readByte_of_lt (h : addr < m.size) : ∃ b, m.readByte addr = .ok b := by
  have h' : addr < m.bytes.size := h
  exact ⟨_, readByte_eq_ok.mpr (Array.getElem?_eq_getElem h')⟩

theorem readByte_of_le (h : m.size ≤ addr) :
    m.readByte addr = .error (.addressOutOfRange addr m.size) := by
  have h' : m.bytes.size ≤ addr := h
  unfold readByte
  rw [Array.getElem?_eq_none h']

theorem readWord_of_le (h : m.size ≤ addr + 1) :
    m.readWord addr = .error (.addressOutOfRange addr m.size) := by
  have h' : m.bytes.size ≤ addr + 1 := h
  unfold readWord
  rw [Array.getElem?_eq_none h']
  cases m.bytes[addr]? with
  | none => rfl
  | some high => rfl

/-! ## 2. Writes -/

/-- A byte that is written changes no other. -/
theorem getElem?_setByte_of_ne {m : Memory} {addr a : Nat} {value : UInt8} (h : a ≠ addr) :
    (m.setByte addr value).bytes[a]? = m.bytes[a]? :=
  Array.getElem?_setIfInBounds_ne (Ne.symm h)

theorem readByte_setByte_of_ne {m : Memory} {addr a : Nat} {value : UInt8} (h : a ≠ addr) :
    (m.setByte addr value).readByte a = m.readByte a := by
  unfold readByte
  rw [getElem?_setByte_of_ne h, size_setByte]

theorem readWord_setByte_of_ne {m : Memory} {addr a : Nat} {value : UInt8} (h : a ≠ addr)
    (h' : a + 1 ≠ addr) : (m.setByte addr value).readWord a = m.readWord a := by
  unfold readWord
  rw [getElem?_setByte_of_ne h, getElem?_setByte_of_ne h', size_setByte]

theorem getElem?_setWord_of_ne {m : Memory} {addr a : Nat} {value : Word} (h : a ≠ addr)
    (h' : a ≠ addr + 1) : (m.setWord addr value).bytes[a]? = m.bytes[a]? := by
  unfold setWord
  rw [getElem?_setByte_of_ne h', getElem?_setByte_of_ne h]

/-- A row that is written changes nothing around it. -/
theorem getElem?_overwrite_of_not_mem {a : Nat} : ∀ {m : Memory} {addr : Nat} {data : List UInt8},
    (a < addr ∨ addr + data.length ≤ a) → (m.overwrite addr data).bytes[a]? = m.bytes[a]?
  | _, _, [], _ => rfl
  | m, addr, b :: rest, h => by
      rw [List.length_cons] at h
      unfold overwrite
      rw [getElem?_overwrite_of_not_mem (by omega), getElem?_setByte_of_ne (by omega)]

/-- A row that is written is found where it was written. -/
theorem getElem?_overwrite {k : Nat} : ∀ {m : Memory} {addr : Nat} {data : List UInt8},
    addr + data.length ≤ m.size → k < data.length →
    (m.overwrite addr data).bytes[addr + k]? = data[k]?
  | m, addr, b :: rest, hle, hk => by
      rw [List.length_cons] at hle hk
      unfold overwrite
      cases k with
      | zero =>
          have hlt : addr < m.bytes.size := by
            show addr < m.size
            omega
          rw [getElem?_overwrite_of_not_mem (by omega)]
          exact Array.getElem?_setIfInBounds_self_of_lt hlt
      | succ k =>
          have h : addr + 1 + rest.length ≤ (m.setByte addr b).size := by
            rw [size_setByte]
            omega
          have hr := getElem?_overwrite (k := k) h (by omega)
          rw [show addr + (k + 1) = addr + 1 + k by omega, hr, List.getElem?_cons_succ]

/-- A row is written in two parts as in one. -/
theorem overwrite_append {m : Memory} {addr : Nat} {data data' : List UInt8} :
    m.overwrite addr (data ++ data') = (m.overwrite addr data).overwrite (addr + data.length) data' := by
  induction data generalizing m addr with
  | nil => rfl
  | cons b data ih =>
      rw [List.cons_append, List.length_cons, Nat.add_comm data.length, ← Nat.add_assoc]
      exact ih

/-- Memories of one size that agree everywhere are equal. -/
theorem eq_of_agreeOn {m m' : Memory} (hs : m'.size = m.size) (h : AgreeOn m m' 0 m.size) :
    m' = m := by
  have hb : m'.bytes = m.bytes := by
    refine Array.ext hs fun a h₁ h₂ => ?_
    have ha := h a (Nat.zero_le a) h₂
    rw [Array.getElem?_eq_getElem h₁, Array.getElem?_eq_getElem h₂] at ha
    exact Option.some.inj ha
  cases m
  cases m'
  exact congrArg Memory.mk hb

/-- The order of two writes does not matter where they are to different places. -/
theorem setByte_comm {m : Memory} {a b : Nat} (x y : UInt8) (h : a ≠ b) :
    (m.setByte a x).setByte b y = (m.setByte b y).setByte a x :=
  congrArg Memory.mk (Array.setIfInBounds_comm x y h)

theorem setByte_eq_self {m : Memory} {a : Nat} {b : UInt8} (h : m.bytes[a]? = some b) :
    m.setByte a b = m := by
  refine eq_of_agreeOn (size_setByte ..) fun a' _ _ => ?_
  by_cases ha : a' = a
  · subst ha
    exact (Array.getElem?_setIfInBounds_self_of_lt (Array.getElem?_eq_some_iff.mp h).1).trans h.symm
  · exact getElem?_setByte_of_ne ha

end Memory

/-! ## 3. Words -/

namespace Word

theorem ofBytes_high_low (w : Word) : ofBytes w.high w.low = w := by
  unfold ofBytes high low
  apply UInt16.toBitVec_inj.mp
  ext i hi
  by_cases h : i < 8
  · simp [-UInt16.toUInt16_toUInt8, h, BitVec.getLsbD_eq_getElem hi]
  · have h₁ : 8 + (i - 8) = i := by omega
    have h₂ : i - 8 < 8 := by omega
    simp [-UInt16.toUInt16_toUInt8, h, h₁, h₂, BitVec.getLsbD_eq_getElem hi]

theorem high_ofBytes (high low : UInt8) : (ofBytes high low).high = high := by
  unfold ofBytes Word.high
  apply UInt8.toBitVec_inj.mp
  ext i hi
  simp
  grind

theorem low_ofBytes (high low : UInt8) : (ofBytes high low).low = low := by
  unfold ofBytes Word.low
  apply UInt8.toBitVec_inj.mp
  ext i hi
  simp

end Word

namespace Memory

variable {m : Memory} {addr : Nat}

theorem readWord_eq_ok {w : Word} (h : m.readWord addr = .ok w) :
    ∃ high low, m.bytes[addr]? = some high ∧ m.bytes[addr + 1]? = some low ∧
      w = Word.ofBytes high low := by
  unfold readWord at h
  split at h
  · rename_i high low hh hl
    cases h
    exact ⟨high, low, hh, hl, rfl⟩
  · cases h

/-- A word is its two bytes. -/
theorem readWord_eq_ok_iff {w : Word} :
    m.readWord addr = .ok w ↔ m.bytes[addr]? = some w.high ∧ m.bytes[addr + 1]? = some w.low := by
  constructor
  · intro h
    obtain ⟨high, low, hh, hl, rfl⟩ := readWord_eq_ok h
    rw [Word.high_ofBytes, Word.low_ofBytes]
    exact ⟨hh, hl⟩
  · intro h
    unfold readWord
    rw [h.1, h.2]
    exact congrArg Except.ok (Word.ofBytes_high_low w)

/-- A memory put together from two that hold the same word somewhere holds it there as well. -/
theorem readWord_of_either {q r : Memory} {w : Word} (hm : m.readWord addr = .ok w)
    (hq : q.readWord addr = .ok w)
    (h : ∀ a < m.size, r.bytes[a]? = m.bytes[a]? ∨ r.bytes[a]? = q.bytes[a]?) :
    r.readWord addr = .ok w := by
  have hlt := lt_size_of_readWord hm
  have hm' := readWord_eq_ok_iff.mp hm
  have hq' := readWord_eq_ok_iff.mp hq
  refine readWord_eq_ok_iff.mpr ⟨?_, ?_⟩
  · exact (h addr (by omega)).elim (·.trans hm'.1) (·.trans hq'.1)
  · exact (h (addr + 1) hlt).elim (·.trans hm'.2) (·.trans hq'.2)

/-- A word can be read where both its bytes lie in memory. -/
theorem readWord_of_lt (h : addr + 1 < m.size) :
    ∃ w, m.readWord addr = .ok w := by
  have hhigh : addr < m.bytes.size := Nat.lt_of_succ_lt h
  have hlow : addr + 1 < m.bytes.size := h
  unfold readWord
  rw [Array.getElem?_eq_getElem hhigh, Array.getElem?_eq_getElem hlow]
  exact ⟨_, rfl⟩

/-- A word that is written is read back. -/
theorem readWord_setWord (w : Word) (h : addr + 1 < m.size) :
    (m.setWord addr w).readWord addr = .ok w := by
  have hhigh : (m.setWord addr w).bytes[addr]? = some w.high := by
    unfold setWord
    rw [getElem?_setByte_of_ne (by omega)]
    exact Array.getElem?_setIfInBounds_self_of_lt (Nat.lt_of_succ_lt h)
  have hlow : (m.setWord addr w).bytes[addr + 1]? = some w.low := by
    refine Array.getElem?_setIfInBounds_self_of_lt ?_
    show addr + 1 < (m.setByte addr w.high).size
    rw [size_setByte]
    exact h
  unfold readWord
  rw [hhigh, hlow]
  exact congrArg Except.ok (Word.ofBytes_high_low w)

theorem readWord_setWord_of_ne {a : Nat} {w : Word} (h₀ : a ≠ addr) (h₁ : a ≠ addr + 1)
    (h₂ : a + 1 ≠ addr) : (m.setWord addr w).readWord a = m.readWord a := by
  unfold setWord
  rw [readWord_setByte_of_ne h₁ (by omega), readWord_setByte_of_ne h₀ h₂]

theorem setWord_setByte_comm {a : Nat} (b : UInt8) (w : Word) (h₀ : a ≠ addr) (h₁ : a ≠ addr + 1) :
    (m.setByte a b).setWord addr w = (m.setWord addr w).setByte a b := by
  unfold setWord
  rw [setByte_comm b w.high h₀, setByte_comm b w.low h₁]

/-- Where the high byte stays, a word is written by its low byte. -/
theorem setWord_eq_setByte {v w : Word} (h : m.readWord addr = .ok v) (hw : w.high = v.high) :
    m.setWord addr w = m.setByte (addr + 1) w.low := by
  obtain ⟨high, low, hh, -, rfl⟩ := readWord_eq_ok h
  rw [Word.high_ofBytes] at hw
  unfold setWord
  rw [hw, setByte_eq_self hh]

/-! ## 4. Rewritten stretches -/

/-- The second memory is the first but for `length` bytes from `first` on, which are those that
`byte` gives one after the other. -/
structure Rewritten (m m' : Memory) (first length : Nat) (byte : Nat → Option UInt8) : Prop where
  size : m'.size = m.size
  written : ∀ k < length, m'.bytes[first + k]? = byte k
  others : ∀ a, a < first ∨ first + length ≤ a → m'.bytes[a]? = m.bytes[a]?

theorem rewritten_overwrite {data : List UInt8} (h : addr + data.length ≤ m.size) :
    m.Rewritten (m.overwrite addr data) addr data.length (data[·]?) where
  size := size_overwrite ..
  written _ hk := getElem?_overwrite h hk
  others _ ha := getElem?_overwrite_of_not_mem ha

/-- There is one memory with the bytes of a stretch rewritten. -/
theorem Rewritten.unique {m' m'' : Memory} {first length : Nat} {byte : Nat → Option UInt8}
    (h : m.Rewritten m' first length byte) (h' : m.Rewritten m'' first length byte) : m' = m'' := by
  refine eq_of_agreeOn (h.size.trans h'.size.symm) fun a _ _ => ?_
  by_cases ha : a < first ∨ first + length ≤ a
  · rw [h.others a ha, h'.others a ha]
  · obtain ⟨k, rfl⟩ : ∃ k, a = first + k := ⟨a - first, by omega⟩
    have hk : k < length := by omega
    rw [h.written k hk, h'.written k hk]

end Memory

end ZMachine
