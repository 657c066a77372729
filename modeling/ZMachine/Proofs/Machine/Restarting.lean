import ZMachine.Proofs.Machine.Bounds
import ZMachine.Proofs.Machine.Resuming

/-!
# Starting again

A restart takes another way to the start of a story than loading does: it puts back dynamic memory
alone, merges the player's flags into it, and only then goes to the entry point. Where the rest of
memory is as it was loaded, both lead to the same machine. The player's flags are the only
difference, and they are also what the return to a snapshot takes over from the machine as it is.

* `Machine.entry`              : where a story starts, as a function of version and memory.
* `Machine.restart_eq_ok`      : a restart taken apart.
* `Machine.Renewed`            : a machine at the start of its story, as if just loaded.
* `Machine.renewed_of_restart` : a restart leads there.
* `Machine.flags_of_restart`, `flags_of_restoreState` : the player's flags after both ways back.
-/

namespace ZMachine

open ZMachine.Action

/-! ## 1. The entry point -/

namespace PackedAddress

theorem even_of_unit {version : UInt8} {n : Nat} (h : unit version = .ok n) : n % 2 = 0 := by
  unfold unit at h
  split at h
  · cases h
  · split at h
    · cases h
      rfl
    · split at h
      · cases h
        rfl
      · split at h
        · cases h
          rfl
        · cases h

/-- Routines start at even addresses. -/
theorem even_of_routine {m : Memory} {packed : Word} {addr : Nat}
    (h : routine m packed = .ok addr) : addr % 2 = 0 := by
  obtain ⟨version, -, h⟩ := except_bind_eq_ok.mp h
  obtain ⟨n, hn, h⟩ := except_bind_eq_ok.mp h
  have heven : packed.toNat * n % 2 = 0 := by
    rw [Nat.mul_mod, even_of_unit hn]
    simp
  dsimp only at h
  split at h
  · obtain ⟨offset, -, h⟩ := except_bind_eq_ok.mp h
    cases h
    omega
  · cases h
    exact heven

/-- The low byte of the shared flags has no say in where a routine is. -/
theorem routine_setFlags (m : Memory) (b : UInt8) (packed : Word) :
    routine (m.setByte 0x11 b) packed = routine m packed := by
  unfold routine expand Header.routinesOffset Header.versionWith Header.version
  rw [Memory.readByte_setByte_of_ne (by decide), Memory.readWord_setByte_of_ne (by decide) (by decide)]

end PackedAddress

namespace Machine

/-- Where a story starts, and the locals of its main routine. -/
def entry (version : UInt8) (memory : Memory) : Except Fault (Nat × List Word) := do
  let initial ← Header.initialPc memory
  if version ≤ 5 then
    return (initial.toNat, [])
  else
    let addr ← PackedAddress.routine memory initial
    let count ← localCount memory addr
    return (addr + 1, List.replicate count 0)

theorem reset_eq_ok_of_entry {m m' : Machine} {u : Unit} (h : reset m = .ok u m') :
    ∃ pc locals, entry m.version m.memory = .ok (pc, locals) ∧
      m' = { m with pc, stack := [], frames := [Frame.main locals] } := by
  unfold reset at h
  unfold entry
  rw [modify_bind, get_bind] at h
  obtain ⟨initial, hi, h⟩ := lift_bind_eq_ok.mp h
  have hi : Header.initialPc m.memory = .ok initial := hi
  rw [hi]
  by_cases hv : m.version ≤ 5
  · rw [if_pos hv] at h
    cases h
    exact ⟨initial.toNat, [], if_pos hv, rfl⟩
  · rw [if_neg hv] at h
    obtain ⟨addr, ha, h⟩ := lift_bind_eq_ok.mp h
    obtain ⟨count, hc, h⟩ := lift_bind_eq_ok.mp h
    cases h
    refine ⟨addr + 1, List.replicate count 0, (if_neg hv).trans ?_, rfl⟩
    exact except_bind_eq_ok.mpr ⟨addr, ha, except_bind_eq_ok.mpr ⟨count, hc, rfl⟩⟩

/-- The low byte of the shared flags has no say in where a story starts: it lies at an odd
address, and is no part of the fields that are read. -/
theorem entry_setFlags (version : UInt8) (memory : Memory) (b : UInt8) :
    entry version (memory.setByte 0x11 b) = entry version memory := by
  unfold entry
  have hinitial : Header.initialPc (memory.setByte 0x11 b) = Header.initialPc memory :=
    Memory.readWord_setByte_of_ne (by decide) (by decide)
  rw [hinitial]
  refine except_bind_congr fun initial _ => ?_
  by_cases hv : version ≤ 5
  · rw [if_pos hv, if_pos hv]
  · rw [if_neg hv, if_neg hv, PackedAddress.routine_setFlags]
    refine except_bind_congr fun addr ha => ?_
    have heven := PackedAddress.even_of_routine ha
    unfold localCount
    rw [Memory.readByte_setByte_of_ne (by omega)]

/-! ## 2. A restart taken apart -/

/-- Memory with its dynamic part as the story has it. -/
def reloaded (story : Array UInt8) (base : Word) (memory : Memory) : Memory :=
  memory.overwrite 0 (story.extract 0 base.toNat).toList

/-- What a restart makes of memory before it goes to the entry point. -/
def merged (story : Array UInt8) (base before own : Word) (memory : Memory) : Memory :=
  (reloaded story base memory).setWord Header.flags2Addr (own ||| (before &&& keptFlags))

/-- **A restart that succeeds** reloads dynamic memory, adds the player's flags of before to those
of the story, goes to the entry point and fills in the header fields of the interpreter. -/
theorem restart_eq_ok {story : Array UInt8} {m m' : Machine} {u : Unit}
    (h : restart story m = .ok u m') :
    ∃ before base own pc locals, Header.flags2 m.memory = .ok before ∧
      Header.staticMemoryBase m.memory = .ok base ∧ base.toNat ≤ story.size ∧
      base.toNat ≤ m.memory.size ∧ Header.flags2 (reloaded story base m.memory) = .ok own ∧
      entry m.version (merged story base before own m.memory) = .ok (pc, locals) ∧
      configureHeader
        { m with
          memory := merged story base before own m.memory
          pc
          stack := []
          frames := [Frame.main locals] } = .ok () m' := by
  unfold restart at h
  rw [get_bind] at h
  obtain ⟨before, hbefore, h⟩ := lift_bind_eq_ok.mp h
  obtain ⟨base, hbase, h⟩ := lift_bind_eq_ok.mp h
  by_cases hle : base.toNat ≤ story.size
  · rw [if_pos hle] at h
    obtain ⟨⟨⟩, q, hw, h⟩ := bind_eq_ok.mp h
    obtain ⟨hfit, rfl⟩ := update_eq_ok.mp hw
    dsimp only at h
    rw [get_bind] at h
    obtain ⟨own, hown, h⟩ := lift_bind_eq_ok.mp h
    obtain ⟨⟨⟩, q, hw, h⟩ := bind_eq_ok.mp h
    obtain ⟨-, rfl⟩ := update_eq_ok.mp hw
    obtain ⟨⟨⟩, q, hr, h⟩ := bind_eq_ok.mp h
    obtain ⟨pc, locals, hentry, rfl⟩ := reset_eq_ok_of_entry hr
    refine ⟨before, base, own, pc, locals, hbefore, hbase, hle, ?_, hown, hentry, h⟩
    rw [Array.length_toList, Array.size_extract] at hfit
    omega
  · rw [if_neg hle] at h
    obtain ⟨⟨⟩, q, hw, -⟩ := bind_eq_ok.mp h
    cases hw

/-! ## 3. The player's flags -/

/-- Both machines have the same word of shared flags, or none. -/
def SameFlags (m m' : Machine) : Prop :=
  Header.flags2 m'.memory = Header.flags2 m.memory

instance : IsPreorder Machine SameFlags where
  refl _ := rfl
  trans _ _ _ h h' := h'.trans h

theorem sameFlags_writeByte {addr : Nat} (value : UInt8) (h₀ : Header.flags2Addr ≠ addr)
    (h₁ : Header.flags2Addr + 1 ≠ addr) : Keeps SameFlags (writeByte addr value) where
  ok h := by
    obtain ⟨-, rfl⟩ := update_eq_ok.mp h
    exact Memory.readWord_setByte_of_ne h₀ h₁
  error h := by
    rw [update_eq_error h]
    exact refl_of SameFlags _

theorem sameFlags_writeWord {addr : Nat} (value : Word) (h₀ : Header.flags2Addr ≠ addr)
    (h₁ : Header.flags2Addr ≠ addr + 1) (h₂ : Header.flags2Addr + 1 ≠ addr) :
    Keeps SameFlags (writeWord addr value) where
  ok h := by
    obtain ⟨-, rfl⟩ := update_eq_ok.mp h
    exact Memory.readWord_setWord_of_ne h₀ h₁ h₂
  error h := by
    rw [update_eq_error h]
    exact refl_of SameFlags _

/-- The header fields of the interpreter lie beside the shared flags. -/
theorem sameFlags_configureHeader : Keeps SameFlags configureHeader := by
  refine Keeps.bind keeps_get fun m => ?_
  have hlate : Keeps SameFlags (do
      if 5 ≤ m.version then
        writeWord 0x22 80
        writeWord 0x24 24
        writeByte 0x26 1
        writeByte 0x27 1
      writeWord 0x32 0x0101) := by
    have hlast : Keeps SameFlags (writeWord 0x32 0x0101) :=
      sameFlags_writeWord _ (by decide) (by decide) (by decide)
    refine Meets.ite ?_ hlast
    refine Keeps.bind (sameFlags_writeWord _ (by decide) (by decide) (by decide)) fun _ => ?_
    refine Keeps.bind (sameFlags_writeWord _ (by decide) (by decide) (by decide)) fun _ => ?_
    refine Keeps.bind (sameFlags_writeByte _ (by decide) (by decide)) fun _ => ?_
    exact Keeps.bind (sameFlags_writeByte _ (by decide) (by decide)) fun _ => hlast
  refine Meets.ite ?_ ?_
  · refine Keeps.bind (keeps_lift _) fun flags => ?_
    exact Keeps.bind (sameFlags_writeByte _ (by decide) (by decide)) fun _ => hlate
  · refine Keeps.bind (sameFlags_writeByte _ (by decide) (by decide)) fun _ => ?_
    refine Keeps.bind (sameFlags_writeByte _ (by decide) (by decide)) fun _ => ?_
    refine Keeps.bind (sameFlags_writeByte _ (by decide) (by decide)) fun _ => ?_
    exact Keeps.bind (sameFlags_writeByte _ (by decide) (by decide)) fun _ => hlate

end Machine

namespace Word

/-- Bits of a mask that are added change none outside it. -/
theorem or_and_not (a b mask : Word) : (a ||| (b &&& mask)) &&& ~~~mask = a &&& ~~~mask := by
  apply UInt16.toBitVec_inj.mp
  ext i hi
  simp
  grind

theorem or_and (a b mask : Word) : (a ||| b) &&& mask = (a &&& mask) ||| (b &&& mask) := by
  apply UInt16.toBitVec_inj.mp
  ext i hi
  simp
  grind

/-- Bits that are added change nothing on a mask exactly if none of its bits is new. -/
theorem or_and_eq_iff (a b mask : Word) :
    (a ||| b) &&& mask = b &&& mask ↔ a &&& mask &&& ~~~b = 0 := by
  have hbits (x y : Word) : x = y ↔ ∀ i, ∀ h : i < 16, x.toBitVec[i] = y.toBitVec[i] := by
    rw [← UInt16.toBitVec_inj]
    exact ⟨fun h _ _ => h ▸ rfl, fun h => BitVec.eq_of_getElem_eq h⟩
  rw [hbits, hbits]
  refine forall_congr' fun i => forall_congr' fun hi => ?_
  simp
  grind

/-- Bits of a mask that are replaced are the new ones. -/
theorem replace_and (a b mask : Word) :
    ((a &&& ~~~mask) ||| (b &&& mask)) &&& mask = b &&& mask := by
  apply UInt16.toBitVec_inj.mp
  ext i hi
  simp
  grind

/-- The player's flags are bits of the low byte. -/
theorem ofBytes_and_kept (high low : UInt8) :
    ofBytes high low &&& Machine.keptFlags = low.toUInt16 &&& Machine.keptFlags := by
  unfold ofBytes Machine.keptFlags
  apply UInt16.toBitVec_inj.mp
  ext i hi
  by_cases h : i < 8
  · simp [h]
  · have hbit : Nat.testBit 3 i = false := by
      apply Nat.testBit_lt_two_pow
      calc 3 < 2 ^ 8 := by decide
        _ ≤ 2 ^ i := Nat.pow_le_pow_right (by decide) (by omega)
    simp [BitVec.getElem_eq_testBit_toNat, hbit]

theorem high_or_kept (a b : Word) : (a ||| (b &&& Machine.keptFlags)).high = a.high := by
  have hkept : Machine.keptFlags >>> 8 = 0 := by decide
  unfold high
  rw [UInt16.shiftRight_or, UInt16.shiftRight_and, hkept, UInt16.and_zero, UInt16.or_zero]

end Word

namespace Machine

/-- The flags that a restart brings back from the story: none if dynamic memory ends before them. -/
def broughtBack (story : Array UInt8) (base : Word) : Word :=
  if 0x11 < base.toNat then (story[0x11]?.getD 0).toUInt16 else 0

theorem getElem?_reloaded {story : Array UInt8} {base : Word} {memory : Memory} {a : Nat}
    (hstory : base.toNat ≤ story.size) (hmemory : base.toNat ≤ memory.size) :
    (reloaded story base memory).bytes[a]? =
      if a < base.toNat then story[a]? else memory.bytes[a]? := by
  have hlength : (story.extract 0 base.toNat).toList.length = base.toNat := by
    rw [Array.length_toList, Array.size_extract]
    omega
  unfold reloaded
  by_cases ha : a < base.toNat
  · have hget := Memory.getElem?_overwrite (k := a)
      (show 0 + (story.extract 0 base.toNat).toList.length ≤ memory.size by omega) (by omega)
    rw [Nat.zero_add] at hget
    rw [if_pos ha, hget, Array.getElem?_toList, Array.getElem?_extract, if_pos (by omega),
      Nat.zero_add]
  · rw [if_neg ha]
    exact Memory.getElem?_overwrite_of_not_mem (.inr (by omega))

/-- The player's flags in reloaded memory, together with those of before. -/
theorem flags_reloaded {story : Array UInt8} {base before own : Word} {memory : Memory}
    (hstory : base.toNat ≤ story.size) (hmemory : base.toNat ≤ memory.size)
    (hbefore : Header.flags2 memory = .ok before)
    (hown : Header.flags2 (reloaded story base memory) = .ok own) :
    (own ||| before) &&& keptFlags = (broughtBack story base ||| before) &&& keptFlags := by
  obtain ⟨high, low, -, hlow, rfl⟩ := Memory.readWord_eq_ok hown
  obtain ⟨high', low', -, hlow', rfl⟩ := Memory.readWord_eq_ok hbefore
  have hlow : (if 0x11 < base.toNat then story[0x11]? else memory.bytes[0x11]?) = some low :=
    (getElem?_reloaded hstory hmemory).symm.trans hlow
  rw [Word.or_and, Word.or_and, Word.ofBytes_and_kept high low]
  unfold broughtBack
  by_cases hb : 0x11 < base.toNat
  · rw [if_pos hb] at hlow ⊢
    rw [hlow]
    rfl
  · rw [if_neg hb] at hlow ⊢
    cases hlow.symm.trans hlow'
    rw [Word.ofBytes_and_kept, UInt16.or_self, UInt16.zero_and, UInt16.zero_or]

/-- **The player's flags after a restart** are those of before together with those that it brings
back from the story. -/
theorem flags_of_restart {story : Array UInt8} {m m' : Machine} {u : Unit}
    (h : restart story m = .ok u m') :
    ∃ before base after, Header.flags2 m.memory = .ok before ∧
      Header.staticMemoryBase m.memory = .ok base ∧ Header.flags2 m'.memory = .ok after ∧
      after &&& keptFlags = (broughtBack story base ||| before) &&& keptFlags := by
  obtain ⟨before, base, own, pc, locals, hbefore, hbase, hstory, hmemory, hown, -, hc⟩ :=
    restart_eq_ok h
  refine ⟨before, base, own ||| (before &&& keptFlags), hbefore, hbase, ?_, ?_⟩
  · exact (sameFlags_configureHeader.ok hc).trans
      (Memory.readWord_setWord _ (Memory.lt_size_of_readWord hown))
  · rw [← flags_reloaded hstory hmemory hbefore hown, Word.or_and, Word.or_and, UInt16.and_assoc,
      UInt16.and_self]

/-- **The player's flags after a snapshot was put back** are those of before. -/
theorem flags_of_restoreState {snapshot : Snapshot} {story : Array UInt8} {m m' : Machine}
    {pc : Nat} (h : restoreState snapshot story m = .ok pc m') :
    ∃ before after, Header.flags2 m.memory = .ok before ∧ Header.flags2 m'.memory = .ok after ∧
      after &&& keptFlags = before &&& keptFlags := by
  unfold restoreState at h
  rw [get_bind] at h
  obtain ⟨before, hbefore, h⟩ := lift_bind_eq_ok.mp h
  obtain ⟨pc', q, -, h⟩ := bind_eq_ok.mp h
  rw [get_bind] at h
  obtain ⟨own, hown, h⟩ := lift_bind_eq_ok.mp h
  obtain ⟨⟨⟩, q', hw, h⟩ := bind_eq_ok.mp h
  obtain ⟨-, rfl⟩ := update_eq_ok.mp hw
  obtain ⟨⟨⟩, q', hc, h⟩ := bind_eq_ok.mp h
  cases h
  refine ⟨before, (own &&& ~~~keptFlags) ||| (before &&& keptFlags), hbefore, ?_,
    Word.replace_and own before keptFlags⟩
  exact (sameFlags_configureHeader.ok hc).trans
    (Memory.readWord_setWord _ (Memory.lt_size_of_readWord hown))

/-! ## 4. As if just loaded -/

/-- Two memories that differ at most in the flags the player owns, the two lowest bits of the word
at 0x10. -/
structure SameButKept (memory memory' : Memory) : Prop where
  size : memory'.size = memory.size
  bytes : ∀ a, a ≠ 0x10 → a ≠ 0x11 → memory'.bytes[a]? = memory.bytes[a]?
  flags : ∃ flags flags', memory.readWord 0x10 = .ok flags ∧ memory'.readWord 0x10 = .ok flags' ∧
    flags' &&& ~~~3 = flags &&& ~~~3

/-- The machine is where the other one is, which has just been loaded. -/
structure Renewed (m₀ m : Machine) : Prop where
  version : m.version = m₀.version
  pc : m.pc = m₀.pc
  stack : m.stack = m₀.stack
  frames : m.frames = m₀.frames
  memory : SameButKept m₀.memory m.memory

theorem configured_setFlags (version : UInt8) (memory : Memory) (b : UInt8) :
    configured version (memory.setByte 0x11 b) = (configured version memory).setByte 0x11 b := by
  have hearly : (if version ≤ 3 then
      (memory.setByte 0x11 b).setByte 0x01
        (((memory.setByte 0x11 b).bytes[0x01]?.getD 0 &&& 0xef) ||| 0x20)
    else ((((memory.setByte 0x11 b).setByte 0x1e 6).setByte 0x1f 65).setByte 0x20 24).setByte 0x21 80) =
      (if version ≤ 3 then memory.setByte 0x01 ((memory.bytes[0x01]?.getD 0 &&& 0xef) ||| 0x20)
    else (((memory.setByte 0x1e 6).setByte 0x1f 65).setByte 0x20 24).setByte 0x21 80).setByte 0x11 b := by
    split
    · rw [Memory.getElem?_setByte_of_ne (by decide), Memory.setByte_comm b _ (by decide)]
    · rw [Memory.setByte_comm b 6 (by decide), Memory.setByte_comm b 65 (by decide),
        Memory.setByte_comm b 24 (by decide), Memory.setByte_comm b 80 (by decide)]
  unfold configured
  dsimp only
  rw [hearly]
  by_cases hv : 5 ≤ version
  · rw [if_pos hv, if_pos hv, Memory.setWord_setByte_comm b 80 (by decide) (by decide),
      Memory.setWord_setByte_comm b 24 (by decide) (by decide), Memory.setByte_comm b 1 (by decide),
      Memory.setByte_comm b 1 (by decide), Memory.setWord_setByte_comm b _ (by decide) (by decide)]
  · rw [if_neg hv, if_neg hv, Memory.setWord_setByte_comm b _ (by decide) (by decide)]

/-- A memory whose part from some address on is that of the story becomes the story once the rest is
reloaded. -/
theorem reloaded_eq {story : Array UInt8} {base : Word} {memory : Memory}
    (hstory : base.toNat ≤ story.size) (hmemory : base.toNat ≤ memory.size)
    (h : ∀ a, base.toNat ≤ a → memory.bytes[a]? = story[a]?) :
    reloaded story base memory = ⟨story⟩ := by
  -- Where one of the two ended the other would have to end too.
  have hsize : memory.size = story.size := by
    refine Nat.le_antisymm (Nat.le_of_not_lt fun hlt => ?_) (Nat.le_of_not_lt fun hlt => ?_)
    · have ha := h story.size hstory
      rw [Array.getElem?_eq_getElem hlt, Array.getElem?_eq_none (Nat.le_refl _)] at ha
      cases ha
    · have hlt : memory.bytes.size < story.size := hlt
      have ha := h memory.bytes.size hmemory
      rw [Array.getElem?_eq_getElem hlt, Array.getElem?_eq_none (Nat.le_refl _)] at ha
      cases ha
  refine Memory.eq_of_agreeOn ((Memory.size_overwrite ..).trans hsize) fun a _ _ => ?_
  rw [getElem?_reloaded hstory hmemory]
  by_cases ha : a < base.toNat
  · rw [if_pos ha]
  · rw [if_neg ha]
    exact h a (by omega)

/-- What a restart makes of such a memory is the story with a byte of flags of its own. -/
theorem merged_eq {story : Array UInt8} {base before own : Word} {memory : Memory}
    (hreloaded : reloaded story base memory = ⟨story⟩)
    (hown : Header.flags2 (reloaded story base memory) = .ok own) :
    merged story base before own memory =
      Memory.setByte ⟨story⟩ 0x11 (own ||| (before &&& keptFlags)).low := by
  rw [hreloaded] at hown
  unfold merged
  rw [hreloaded]
  exact Memory.setWord_eq_setByte hown (Word.high_or_kept own before)

/-- A loaded story is at its entry point. -/
theorem load_eq_ok_of_entry {image : Array UInt8} {m : Machine} (h : load image = .ok m) :
    ∃ pc locals, entry m.version ⟨image⟩ = .ok (pc, locals) ∧
      m = { m with memory := ⟨image⟩, pc, stack := [], frames := [Frame.main locals] } := by
  unfold load at h
  split at h
  · cases h
  · obtain ⟨version, -, h⟩ := except_bind_eq_ok.mp h
    obtain ⟨n, -, h⟩ := except_bind_eq_ok.mp h
    dsimp only at h
    split at h
    · rename_i m' hr
      cases h
      obtain ⟨pc, locals, hentry, rfl⟩ := reset_eq_ok_of_entry hr
      exact ⟨pc, locals, hentry, rfl⟩
    · cases h

/-- **A restart leads where loading leads**, if everything from the start of static memory on is
what it was once the story had been loaded. -/
theorem renewed_of_restart {image : Array UInt8} {m₀ m₁ m m' : Machine} {base : Word} {u u' : Unit}
    (hload : load image = .ok m₀) (hconf : configureHeader m₀ = .ok u m₁)
    (hversion : m.version = m₁.version) (hbase : Header.staticMemoryBase m.memory = .ok base)
    (h64 : 0x40 ≤ base.toNat)
    (hsame : ∀ a, base.toNat ≤ a → m.memory.bytes[a]? = m₁.memory.bytes[a]?)
    (h : restart image m = .ok u' m') : Renewed m₁ m' := by
  obtain ⟨hheader, -, -, hlive, -⟩ := load_eq_ok hload
  obtain ⟨pc₀, locals₀, hentry₀, hm₀⟩ := load_eq_ok_of_entry hload
  have himage : m₀.memory = ⟨image⟩ := congrArg Machine.memory hm₀
  have hflags₀ : Header.flags2 m₁.memory = Header.flags2 m₀.memory :=
    sameFlags_configureHeader.ok hconf
  rw [configureHeader_eq (hlive.size.symm ▸ hheader)] at hconf
  cases hconf
  obtain ⟨before, base', own, pc, locals, -, hbase', hstory, hmemory, hown, hentry, hc⟩ :=
    restart_eq_ok h
  cases hbase.symm.trans hbase'
  -- Nothing that the interpreter fills in lies in static memory.
  have hrest (a : Nat) (ha : base.toNat ≤ a) : m.memory.bytes[a]? = image[a]? := by
    have howned : ¬ Owned a := by
      unfold Owned
      omega
    rw [hsame a ha, getElem?_configured howned, himage]
  have hreloaded := reloaded_eq hstory hmemory hrest
  have hflags : Header.flags2 m'.memory = .ok (own ||| (before &&& keptFlags)) :=
    (sameFlags_configureHeader.ok hc).trans
      (Memory.readWord_setWord _ (Memory.lt_size_of_readWord hown))
  have hversion' : m.version = m₀.version := hversion
  rw [merged_eq hreloaded hown, entry_setFlags, hversion', hentry₀] at hentry
  cases hentry
  rw [merged_eq hreloaded hown, configureHeader_eq (by rw [Memory.size_setByte]; exact hheader)] at hc
  cases hc
  refine ⟨hversion, (congrArg Machine.pc hm₀).symm, (congrArg Machine.stack hm₀).symm,
    (congrArg Machine.frames hm₀).symm, ?_, ?_, ?_⟩
  · rw [size_configured, size_configured, Memory.size_setByte, himage]
  · intro a _ ha
    rw [configured_setFlags, Memory.getElem?_setByte_of_ne ha, hversion', himage]
  · rw [hreloaded, ← himage] at hown
    exact ⟨own, _, hflags₀.trans hown, hflags, Word.or_and_not own before keptFlags⟩

end Machine

end ZMachine
