import ZMachine.Proofs.Compression
import ZMachine.Proofs.Machine.Quiet
import ZMachine.Proofs.Memory
import ZMachine.Snapshot.Basic

/-!
# Snapshots are put back

A snapshot taken of one machine and put back into another gives that one the dynamic memory, the
stack and the frames of the first.

* `Snapshot.dynamicSize_eq_ok`, `capture_eq_ok`, `apply_eq_ok` : what each of them amounts to.
* `Snapshot.apply_of_capture` : a snapshot that was taken can be put back, and what that gives.
* `Snapshot.capture_congr`    : a snapshot depends on dynamic memory, the stack and the frames only.
* `Snapshot.capture_apply_inverse` : there and back, and that a snapshot is put back whole or not at
  all.
-/

namespace ZMachine.Snapshot

open ZMachine.Action

/-! ## 1. Taking a snapshot and putting it back -/

theorem dynamicSize_eq_ok {memory : Memory} {story : Array UInt8} {n : Nat} :
    dynamicSize memory story = .ok n ↔
      ∃ base, Header.staticMemoryBase memory = .ok base ∧ n = base.toNat ∧
        base.toNat ≤ story.size ∧ base.toNat ≤ memory.size := by
  unfold dynamicSize
  rw [except_bind_eq_ok]
  refine exists_congr fun base => and_congr_right fun _ => ?_
  by_cases h : base.toNat > story.size ∨ base.toNat > memory.size
  · rw [if_pos h]
    constructor
    · intro h'
      cases h'
    · intro h
      obtain ⟨-, h₁, h₂⟩ := h
      omega
  · rw [if_neg h]
    constructor
    · intro h'
      cases h'
      exact ⟨rfl, by omega, by omega⟩
    · intro h
      obtain ⟨rfl, -, -⟩ := h
      rfl

/-- The first bytes of memory. -/
theorem slice_zero_eq_ok {memory : Memory} {n : Nat} {row : List UInt8}
    (h : memory.slice 0 n = .ok row) :
    row.length = n ∧ ∀ a, a < n → row[a]? = memory.bytes[a]? := by
  obtain ⟨u, hc, h⟩ := except_bind_eq_ok.mp h
  have hle : 0 + n ≤ memory.bytes.size := Machine.check_eq_ok.mp hc
  cases h
  rw [Nat.zero_add] at hle ⊢
  constructor
  · rw [Array.length_toList, Array.size_extract]
    omega
  · intro a ha
    rw [Array.getElem?_toList, Array.getElem?_extract, if_pos (by omega), Nat.zero_add]

theorem capture_eq_ok {m : Machine} {story : Array UInt8} {pc : Nat} {snapshot : Snapshot} :
    capture m story pc = .ok snapshot ↔
      ∃ size current part stored, dynamicSize m.memory story = .ok size ∧
        m.memory.slice 0 size = .ok current ∧ storyPart story size = .ok part ∧
        Compression.compress current part = .ok stored ∧
        snapshot = { memory := stored, stack := m.stack, frames := m.frames, pc } := by
  unfold capture
  constructor
  · intro h
    obtain ⟨size, hsize, h⟩ := except_bind_eq_ok.mp h
    obtain ⟨current, hcurrent, h⟩ := except_bind_eq_ok.mp h
    obtain ⟨part, hpart, h⟩ := except_bind_eq_ok.mp h
    obtain ⟨stored, hstored, h⟩ := except_bind_eq_ok.mp h
    cases h
    exact ⟨size, current, part, stored, hsize, hcurrent, hpart, hstored, rfl⟩
  · intro h
    obtain ⟨size, current, part, stored, hsize, hcurrent, hpart, hstored, rfl⟩ := h
    rw [hsize]
    refine except_bind_eq_ok.mpr ⟨size, rfl, except_bind_eq_ok.mpr ⟨current, hcurrent, ?_⟩⟩
    exact except_bind_eq_ok.mpr ⟨part, hpart, except_bind_eq_ok.mpr ⟨stored, hstored, rfl⟩⟩

theorem base_le_of_capture {m : Machine} {story : Array UInt8} {pc : Nat} {snapshot : Snapshot}
    {base : Word} (h : capture m story pc = .ok snapshot)
    (hbase : Header.staticMemoryBase m.memory = .ok base) : base.toNat ≤ m.memory.size := by
  obtain ⟨size, current, part, stored, hdyn, -⟩ := capture_eq_ok.mp h
  obtain ⟨base', hb, -, -, hle⟩ := dynamicSize_eq_ok.mp hdyn
  cases hbase.symm.trans hb
  exact hle

/-- A snapshot that can be put back replaces the first bytes of memory, the stack, the frames and
the program counter. -/
theorem apply_eq_ok {snapshot : Snapshot} {story : Array UInt8} {m m' : Machine} {pc : Nat} :
    snapshot.apply story m = .ok pc m' ↔
      ∃ size part bytes, Snapshot.dynamicSize m.memory story = .ok size ∧
        Snapshot.storyPart story size = .ok part ∧
        Compression.decompress snapshot.memory part = .ok bytes ∧ bytes.length ≤ m.memory.size ∧
        pc = snapshot.pc ∧
        m' = { m with
               memory := m.memory.overwrite 0 bytes
               stack := snapshot.stack
               frames := snapshot.frames
               pc := snapshot.pc } := by
  unfold Snapshot.apply
  rw [get_bind, lift_bind_eq_ok]
  constructor
  · intro h
    obtain ⟨size, hsize, h⟩ := h
    obtain ⟨part, hpart, h⟩ := lift_bind_eq_ok.mp h
    obtain ⟨bytes, hbytes, h⟩ := lift_bind_eq_ok.mp h
    obtain ⟨u, q, hw, h⟩ := bind_eq_ok.mp h
    obtain ⟨hle, rfl⟩ := Machine.update_eq_ok.mp hw
    cases h
    exact ⟨size, part, bytes, hsize, hpart, hbytes, by omega, rfl, rfl⟩
  · intro h
    obtain ⟨size, part, bytes, hsize, hpart, hbytes, hle, rfl, rfl⟩ := h
    refine ⟨size, hsize, lift_bind_eq_ok.mpr ⟨part, hpart, lift_bind_eq_ok.mpr ⟨bytes, hbytes, ?_⟩⟩⟩
    refine bind_eq_ok.mpr ⟨(), _, Machine.update_eq_ok.mpr ⟨by omega, rfl⟩, rfl⟩

/-- A snapshot that cannot be put back leaves the machine as it is. -/
theorem apply_eq_error {snapshot : Snapshot} {story : Array UInt8} {m m' : Machine} {e : Fault}
    (h : snapshot.apply story m = .error e m') : m' = m := by
  unfold Snapshot.apply at h
  rw [get_bind] at h
  rcases lift_bind_eq_error.mp h with ⟨-, rfl⟩ | ⟨size, -, h⟩
  · rfl
  · rcases lift_bind_eq_error.mp h with ⟨-, rfl⟩ | ⟨part, -, h⟩
    · rfl
    · rcases lift_bind_eq_error.mp h with ⟨-, rfl⟩ | ⟨bytes, -, h⟩
      · rfl
      · rcases bind_eq_error.mp h with h | ⟨u, q, -, h⟩
        · exact Machine.update_eq_error h
        · cases h

/-! ## 2. Both, one after the other -/

/-- **A snapshot that was taken can be put back** into any machine with the same sizes of memory and
of dynamic memory, and gives it the dynamic memory, the stack and the frames of the first. -/
theorem apply_of_capture {m q : Machine} {story : Array UInt8} {pc : Nat} {snapshot : Snapshot}
    {base : Word} (h : capture m story pc = .ok snapshot)
    (hbase : Header.staticMemoryBase m.memory = .ok base)
    (hbase' : Header.staticMemoryBase q.memory = .ok base) (hsize : q.memory.size = m.memory.size) :
    ∃ memory, memory.size = m.memory.size ∧ m.memory.AgreeOn memory 0 base.toNat ∧
      q.memory.AgreeOn memory base.toNat m.memory.size ∧
      snapshot.apply story q =
        .ok pc { q with memory, stack := m.stack, frames := m.frames, pc } := by
  obtain ⟨size, current, part, stored, hd, hc, hp, hs, rfl⟩ := capture_eq_ok.mp h
  obtain ⟨base', hb, rfl, hstory, hle⟩ := dynamicSize_eq_ok.mp hd
  cases hbase.symm.trans hb
  obtain ⟨hlength, hcurrent⟩ := slice_zero_eq_ok hc
  have hfit : 0 + current.length ≤ q.memory.size := by omega
  refine ⟨q.memory.overwrite 0 current, ?_, ?_, ?_, apply_eq_ok.mpr ?_⟩
  · rw [Memory.size_overwrite, hsize]
  · intro a _ ha
    have hget := Memory.getElem?_overwrite hfit (hlength.symm ▸ ha)
    rw [Nat.zero_add] at hget
    exact hget.trans (hcurrent a ha)
  · intro a ha _
    exact Memory.getElem?_overwrite_of_not_mem (.inr (by omega))
  · refine ⟨base.toNat, part, current, ?_, hp, Compression.decompress_of_compress hs, by omega, rfl, rfl⟩
    exact dynamicSize_eq_ok.mpr ⟨base, hbase', rfl, hstory, by omega⟩

/-! ## 3. There and back -/

/-- The first bytes of two memories of one size are the same if these agree there. -/
theorem slice_zero_congr {memory memory' : Memory} {n : Nat} (hsize : memory'.size = memory.size)
    (h : memory.AgreeOn memory' 0 n) : memory'.slice 0 n = memory.slice 0 n := by
  have hrow : memory'.bytes.extract 0 (0 + n) = memory.bytes.extract 0 (0 + n) := by
    refine Array.ext_getElem? fun a => ?_
    have hsize' : memory'.bytes.size = memory.bytes.size := hsize
    rw [Array.getElem?_extract, Array.getElem?_extract, hsize', Nat.zero_add, Nat.zero_add]
    by_cases ha : a < min n memory.bytes.size - 0
    · rw [if_pos ha, if_pos ha, h a (Nat.zero_le a) (by omega)]
    · rw [if_neg ha, if_neg ha]
  unfold Memory.slice Memory.check
  rw [hsize, hrow]

/-- **A snapshot depends on dynamic memory, the stack and the frames only.** -/
theorem capture_congr {m q : Machine} {story : Array UInt8} {pc : Nat} {base : Word}
    (hbase : Header.staticMemoryBase m.memory = .ok base)
    (hbase' : Header.staticMemoryBase q.memory = .ok base) (hsize : q.memory.size = m.memory.size)
    (hagree : m.memory.AgreeOn q.memory 0 base.toNat) (hstack : q.stack = m.stack)
    (hframes : q.frames = m.frames) : capture q story pc = capture m story pc := by
  have hdyn : dynamicSize q.memory story = dynamicSize m.memory story := by
    unfold dynamicSize
    rw [hbase, hbase', hsize]
  unfold capture
  rw [hdyn, hstack, hframes]
  refine except_bind_congr fun size h => ?_
  obtain ⟨base', hb, rfl, -, -⟩ := dynamicSize_eq_ok.mp h
  cases hbase.symm.trans hb
  rw [slice_zero_congr hsize hagree]

/-- **Taking a snapshot and putting it back are inverse, and a snapshot is put back whole or not at
all.** A snapshot that was taken can be put back into any machine with memory of the same size and
the same word for the size of dynamic memory. Its dynamic memory, stack, frames and program counter
become those of the snapshot, and nothing else changes; the snapshot taken of it then is the same.
Whatever the snapshot, if it cannot be put back the machine is as before. -/
theorem capture_apply_inverse :
    (∀ (m q : Machine) (story : Array UInt8) (pc : Nat) (snapshot : Snapshot),
      capture m story pc = .ok snapshot → q.memory.size = m.memory.size →
      q.memory.readWord 0x0e = m.memory.readWord 0x0e →
      ∃ base memory, m.memory.readWord 0x0e = .ok base ∧ memory.size = q.memory.size ∧
        m.memory.AgreeOn memory 0 base.toNat ∧
        q.memory.AgreeOn memory base.toNat q.memory.size ∧
        snapshot.apply story q =
          .ok pc { q with memory, stack := m.stack, frames := m.frames, pc } ∧
        capture { q with memory, stack := m.stack, frames := m.frames, pc } story pc =
          .ok snapshot) ∧
    ∀ (snapshot : Snapshot) (story : Array UInt8) (m m' : Machine) (e : Fault),
      snapshot.apply story m = .error e m' → m' = m := by
  refine ⟨fun m q story pc snapshot h hsize hword => ?_, fun snapshot story m m' e => apply_eq_error⟩
  obtain ⟨size, current, part, stored, hdyn, -⟩ := capture_eq_ok.mp h
  obtain ⟨base, hbase, -⟩ := dynamicSize_eq_ok.mp hdyn
  have hbase' : Header.staticMemoryBase q.memory = .ok base := hword.trans hbase
  obtain ⟨memory, hs, hlow, hhigh, happly⟩ := apply_of_capture h hbase hbase' hsize
  have hs' : memory.size = q.memory.size := hs.trans hsize.symm
  refine ⟨base, memory, hbase, hs', hlow, hsize.symm ▸ hhigh, happly, ?_⟩
  -- Each byte is that of one machine or the other, so the word for the size is still there.
  have hnew : Header.staticMemoryBase memory = .ok base := by
    refine Memory.readWord_of_either hbase hbase' fun a ha => ?_
    by_cases hb : a < base.toNat
    · exact .inl (hlow a (Nat.zero_le a) hb)
    · exact .inr (hhigh a (Nat.le_of_not_lt hb) ha)
  rw [← h]
  exact capture_congr hbase hnew hs hlow rfl rfl

/-- A machine with eighteen bytes of dynamic memory and two beyond it. -/
def eighteenBytes (first last : UInt8) (stack : List Word) : Machine :=
  { memory := ⟨#[first, 0, 0, 0, 0, 0, 0, 0, 0, 0, 0, 0, 0, 0, 0, 18, 0, first, 0, last]⟩
    version := 5
    pc := 19
    stack
    frames := [Frame.main [7]]
    stackLimit := 1024 }

/-- What changed up to the end of dynamic memory is put back and taken again, and what was put
beyond it stays; a snapshot that breaks off in a run changes nothing. -/
theorem eighteenBytes_inverse :
    (∃ snapshot memory, capture (eighteenBytes 5 1 [3]) (eighteenBytes 0 0 []).memory.bytes 16 =
        .ok snapshot ∧
      memory.bytes[17]? = some 5 ∧ memory.bytes[19]? = some 2 ∧
      snapshot.apply (eighteenBytes 0 0 []).memory.bytes (eighteenBytes 9 2 []) =
        .ok 16 { eighteenBytes 9 2 [] with memory, stack := [3], pc := 16 } ∧
      capture { eighteenBytes 9 2 [] with memory, stack := [3], pc := 16 }
        (eighteenBytes 0 0 []).memory.bytes 16 = .ok snapshot) ∧
    ∃ e m, apply { memory := [4, 0], stack := [], frames := [], pc := 0 }
        (eighteenBytes 0 0 []).memory.bytes (eighteenBytes 9 2 []) = .error e m ∧
      m = eighteenBytes 9 2 [] := by
  refine ⟨?_, ?_⟩
  · have h : capture (eighteenBytes 5 1 [3]) (eighteenBytes 0 0 []).memory.bytes 16 = .ok _ := rfl
    obtain ⟨base, memory, hbase, -, hlow, hhigh, happly, hagain⟩ :=
      capture_apply_inverse.1 _ (eighteenBytes 9 2 []) _ _ _ h rfl rfl
    cases hbase
    exact ⟨_, memory, h, hlow 17 (by decide) (by decide), hhigh 19 (by decide) (by decide), happly,
      hagain⟩
  · have h : apply { memory := [4, 0], stack := [], frames := [], pc := 0 }
        (eighteenBytes 0 0 []).memory.bytes (eighteenBytes 9 2 []) = .error _ _ := rfl
    exact ⟨_, _, h, capture_apply_inverse.2 _ _ _ _ _ h⟩

end ZMachine.Snapshot
