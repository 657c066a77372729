import ZMachine.Machine.Setup
import ZMachine.Proofs.Decoding
import ZMachine.Proofs.Machine.Steering
import ZMachine.Proofs.Snapshot

/-!
# Going on from a snapshot

The return to a snapshot puts a machine where the instruction that took the snapshot left it, as if
that instruction had just reported success. Only a few header bytes come from the machine as it is
now or from the interpreter.

* `Machine.configured`, `configureHeader_eq` : the header fields the interpreter fills in.
* `Machine.Alike`, `Machine.Alike.reports`   : a report that one machine can take can be taken by
  every machine with the same stacks and the same place for globals.
* `Machine.goOn`                             : what a return to a snapshot amounts to for the
  machine the snapshot was taken of.
* `Machine.resume_of_capture`                : the return to a snapshot does just that.
-/

namespace ZMachine.Machine

open ZMachine.Action

/-! ## 1. The header -/

/-- Memory with the header fields of the interpreter filled in. -/
def configured (version : UInt8) (memory : Memory) : Memory :=
  let early :=
    if version ≤ 3 then memory.setByte 0x01 ((memory.bytes[0x01]?.getD 0 &&& 0xef) ||| 0x20)
    else (((memory.setByte 0x1e 6).setByte 0x1f 65).setByte 0x20 24).setByte 0x21 80
  let late :=
    if 5 ≤ version then
      (((early.setWord 0x22 80).setWord 0x24 24).setByte 0x26 1).setByte 0x27 1
    else early
  late.setWord 0x32 0x0101

theorem update_of_le {m : Machine} {addr width : Nat} {change : Memory → Memory}
    (h : addr + width ≤ m.memory.size) :
    update addr width change m = .ok () { m with memory := change m.memory } :=
  update_eq_ok.mpr ⟨h, rfl⟩

theorem writeByte_of_lt {m : Machine} {addr : Nat} (value : UInt8) (h : addr < m.memory.size) :
    writeByte addr value m = .ok () { m with memory := m.memory.setByte addr value } :=
  update_of_le h

theorem writeWord_of_lt {m : Machine} {addr : Nat} (value : Word) (h : addr + 1 < m.memory.size) :
    writeWord addr value m = .ok () { m with memory := m.memory.setWord addr value } :=
  update_of_le h

/-- What is written from version 5 on, and in every version. -/
theorem configureLate_eq {q : Machine} (version : UInt8) (h : 64 ≤ q.memory.size) :
    (do
      if 5 ≤ version then
        writeWord 0x22 80
        writeWord 0x24 24
        writeByte 0x26 1
        writeByte 0x27 1
      writeWord 0x32 0x0101 : Action Machine Unit) q =
    .ok () { q with
      memory := (if 5 ≤ version then
          (((q.memory.setWord 0x22 80).setWord 0x24 24).setByte 0x26 1).setByte 0x27 1
        else q.memory).setWord 0x32 0x0101 } := by
  by_cases hv : 5 ≤ version
  · rw [if_pos hv, if_pos hv]
    rw [bind_of_ok (writeWord_of_lt 80 (by omega))]
    rw [bind_of_ok (writeWord_of_lt 24 (by simp; omega))]
    rw [bind_of_ok (writeByte_of_lt 1 (by simp; omega))]
    rw [bind_of_ok (writeByte_of_lt 1 (by simp; omega))]
    exact writeWord_of_lt _ (by simp; omega)
  · rw [if_neg hv, if_neg hv]
    exact writeWord_of_lt _ (by omega)

/-- **Every machine with a whole header can be configured.** -/
theorem configureHeader_eq {m : Machine} (h : Header.size ≤ m.memory.size) :
    configureHeader m = .ok () { m with memory := configured m.version m.memory } := by
  have h64 : 64 ≤ m.memory.size := h
  unfold configureHeader configured
  rw [get_bind]
  by_cases hv : m.version ≤ 3
  · have hflags : m.memory.readByte 0x01 = .ok (m.memory.bytes[0x01]?.getD 0) := by
      have hlt : 0x01 < m.memory.bytes.size := Nat.lt_of_lt_of_le (by decide) h64
      unfold Memory.readByte
      rw [Array.getElem?_eq_getElem hlt]
      rfl
    rw [if_pos hv, if_pos hv, hflags]
    rw [bind_of_ok (lift_eq_ok.mpr ⟨rfl, rfl⟩), bind_of_ok (writeByte_of_lt _ (by omega))]
    exact configureLate_eq _ (by simp; omega)
  · rw [if_neg hv, if_neg hv]
    rw [bind_of_ok (writeByte_of_lt 6 (by omega))]
    rw [bind_of_ok (writeByte_of_lt 65 (by simp; omega))]
    rw [bind_of_ok (writeByte_of_lt 24 (by simp; omega))]
    rw [bind_of_ok (writeByte_of_lt 80 (by simp; omega))]
    exact configureLate_eq _ (by simp; omega)

/-- The bytes of the header that the interpreter owns, the word of shared flags among them. -/
def Owned (a : Nat) : Prop :=
  a = 0x01 ∨ (0x10 ≤ a ∧ a ≤ 0x11) ∨ (0x1e ≤ a ∧ a ≤ 0x27) ∨ (0x32 ≤ a ∧ a ≤ 0x33)

theorem size_configured (version : UInt8) (memory : Memory) :
    (configured version memory).size = memory.size := by
  unfold configured
  split <;> split <;> simp

theorem getElem?_configured {version : UInt8} {memory : Memory} {a : Nat} (h : ¬ Owned a) :
    (configured version memory).bytes[a]? = memory.bytes[a]? := by
  unfold Owned at h
  have hearly : (if version ≤ 3 then
      memory.setByte 0x01 ((memory.bytes[0x01]?.getD 0 &&& 0xef) ||| 0x20)
    else (((memory.setByte 0x1e 6).setByte 0x1f 65).setByte 0x20 24).setByte 0x21 80).bytes[a]? =
      memory.bytes[a]? := by
    split
    · exact Memory.getElem?_setByte_of_ne (by omega)
    · rw [Memory.getElem?_setByte_of_ne (by omega), Memory.getElem?_setByte_of_ne (by omega),
        Memory.getElem?_setByte_of_ne (by omega), Memory.getElem?_setByte_of_ne (by omega)]
  unfold configured
  rw [Memory.getElem?_setWord_of_ne (by omega) (by omega)]
  by_cases hv : 5 ≤ version
  · rw [if_pos hv, Memory.getElem?_setByte_of_ne (by omega),
      Memory.getElem?_setByte_of_ne (by omega),
      Memory.getElem?_setWord_of_ne (by omega) (by omega),
      Memory.getElem?_setWord_of_ne (by omega) (by omega), hearly]
  · rw [if_neg hv, hearly]

theorem flags2_of_header {memory : Memory} (h : Header.size ≤ memory.size) :
    ∃ flags, Header.flags2 memory = .ok flags :=
  Memory.readWord_of_lt (Nat.lt_of_lt_of_le (by decide) h)

/-- Puts the player's flags of another time, the two lowest bits, in place of the machine's own, and
fills in the header fields of the interpreter. -/
def refit (flags : Word) : Action Machine Unit := do
  let own ← (← get).memory.readWord 0x10
  writeWord 0x10 ((own &&& ~~~3) ||| (flags &&& 3))
  configureHeader

/-- What that makes of memory depends on memory and version alone, and it changes only bytes that
the interpreter owns. -/
theorem refit_eq (flags : Word) (version : UInt8) {memory : Memory}
    (h : Header.size ≤ memory.size) :
    ∃ memory' : Memory, memory'.size = memory.size ∧
      (∀ a, ¬ Owned a → memory'.bytes[a]? = memory.bytes[a]?) ∧
      ∀ m : Machine, m.memory = memory → m.version = version →
        refit flags m = .ok () { m with memory := memory' } := by
  have h64 : 64 ≤ memory.size := h
  obtain ⟨own, hown⟩ : ∃ own, memory.readWord 0x10 = .ok own := flags2_of_header h
  let flagged := memory.setWord 0x10 ((own &&& ~~~3) ||| (flags &&& 3))
  refine ⟨configured version flagged, ?_, ?_, ?_⟩
  · rw [size_configured, Memory.size_setWord]
  · intro a ha
    have h₀ : a ≠ 0x10 := fun he => ha (.inr (.inl (by omega)))
    have h₁ : a ≠ 0x10 + 1 := fun he => ha (.inr (.inl (by omega)))
    rw [getElem?_configured ha]
    exact Memory.getElem?_setWord_of_ne h₀ h₁
  · rintro m rfl rfl
    unfold refit
    rw [get_bind, hown, bind_of_ok (lift_eq_ok.mpr ⟨rfl, rfl⟩)]
    rw [bind_of_ok (writeWord_of_lt _ (Nat.lt_of_lt_of_le (by decide) h64))]
    refine configureHeader_eq ?_
    rw [Memory.size_setWord]
    exact h

/-! ## 2. Reports -/

/-- Two machines at the same place, with the same stacks, the same size of memory and the same place
for globals. -/
structure Alike (m n : Machine) : Prop where
  version : n.version = m.version
  pc : n.pc = m.pc
  stack : n.stack = m.stack
  frames : n.frames = m.frames
  stackLimit : n.stackLimit = m.stackLimit
  size : n.memory.size = m.memory.size
  globals : Header.globalVariables n.memory = Header.globalVariables m.memory

section Alike

variable {m n m' : Machine}

theorem Alike.stores {var value : Word} (h : Alike m n) (hs : Stored var value m m')
    (value' : Word) : ∃ n', Stored var value' n n' := by
  cases hs with
  | pushed hvar hlt =>
      refine ⟨_, .pushed hvar ?_⟩
      rw [h.stack, h.stackLimit]
      exact hlt
  | inLocal f fs hvar hlt hf hslot => exact ⟨_, .inLocal f fs hvar hlt (h.frames.trans hf) hslot⟩
  | inGlobal addr hvar hle ha hfit =>
      refine ⟨_, .inGlobal addr hvar hle ?_ (h.size.symm ▸ hfit)⟩
      unfold globalAddr at ha ⊢
      rw [h.globals]
      exact ha

theorem Alike.storesResult {store : Option UInt8} {value : Word} {u : Unit} (h : Alike m n)
    (hs : storeResult store value m = .ok u m') (value' : Word) :
    ∃ n', storeResult store value' n = .ok () n' := by
  cases storeResult_eq_ok.mp hs with
  | nowhere => exact ⟨n, rfl⟩
  | stored var hs =>
      obtain ⟨n', hn⟩ := h.stores hs value'
      exact ⟨n', storeResult_eq_ok.mpr (.stored var hn)⟩

theorem Alike.delivers {i : Instruction} {value : Word} {flow : Flow} (h : Alike m n)
    (hs : deliver i value m = .ok flow m') (value' : Word) :
    ∃ n', deliver i value' n = .ok .next n' := by
  obtain ⟨u, q, hq, -⟩ := bind_eq_ok.mp hs
  obtain ⟨n', hn⟩ := h.storesResult hq value'
  exact ⟨n', bind_eq_ok.mpr ⟨(), n', hn, rfl⟩⟩

theorem Alike.returns {value : Word} {flow : Flow} (h : Alike m n)
    (hr : ret value m = .ok flow m') :
    ∃ n', ret value n = .ok (.returned value) n' := by
  match hf : m.frames with
  | [] => rw [ret_of_short value (by rw [hf]; decide)] at hr; cases hr
  | [_] => rw [ret_of_short value (by rw [hf]; exact Nat.le_refl 1)] at hr; cases hr
  | frame :: caller :: rest =>
      rw [ret_cons_cons value hf] at hr
      obtain ⟨u, q, hq, -⟩ := bind_eq_ok.mp hr
      have hback : Alike
          { m with
            pc := frame.returnPc
            stack := bottom frame.stackBase m.stack
            frames := caller :: rest }
          { n with
            pc := frame.returnPc
            stack := bottom frame.stackBase n.stack
            frames := caller :: rest } :=
        ⟨h.version, rfl, congrArg (bottom frame.stackBase) h.stack, rfl, h.stackLimit, h.size,
          h.globals⟩
      obtain ⟨n', hn⟩ := hback.storesResult hq value
      refine ⟨n', ?_⟩
      rw [ret_cons_cons value (h.frames.trans hf)]
      exact bind_eq_ok.mpr ⟨(), n', hn, rfl⟩

theorem Alike.jumps {offset : Int} {u : Unit} (h : Alike m n) (hj : jump offset m = .ok u m') :
    ∃ n', jump offset n = .ok () n' := by
  obtain ⟨pc, hpc, hlt, -⟩ := jump_eq_ok.mp hj
  refine ⟨_, jump_eq_ok.mpr ⟨pc, ?_, h.size.symm ▸ hlt, rfl⟩⟩
  unfold jumpOrigin at hpc ⊢
  rw [h.pc, h.size]
  exact hpc

theorem Alike.branches {b : Option Branch} {condition : Bool} {flow : Flow} (h : Alike m n)
    (hb : branch b condition m = .ok flow m') :
    ∃ flow' n', branch b condition n = .ok flow' n' ∧ flow' ≠ .quit := by
  unfold branch at hb ⊢
  cases b with
  | none => exact ⟨.next, n, rfl, nofun⟩
  | some b =>
      by_cases hc : condition ≠ b.onTrue
      · simp only [if_pos hc]
        exact ⟨.next, n, rfl, nofun⟩
      · simp only [if_neg hc] at hb ⊢
        by_cases h₀ : b.offset = 0
        · simp only [if_pos h₀] at hb ⊢
          obtain ⟨n', hn⟩ := h.returns hb
          exact ⟨_, n', hn, nofun⟩
        · simp only [if_neg h₀] at hb ⊢
          by_cases h₁ : b.offset = 1
          · simp only [if_pos h₁] at hb ⊢
            obtain ⟨n', hn⟩ := h.returns hb
            exact ⟨_, n', hn, nofun⟩
          · simp only [if_neg h₁] at hb ⊢
            obtain ⟨u, q, hj, -⟩ := bind_eq_ok.mp hb
            obtain ⟨n', hn⟩ := h.jumps hj
            exact ⟨.branched, n', bind_eq_ok.mpr ⟨(), n', hn, rfl⟩, nofun⟩

/-- **A report that one machine can take, another like it can take too**, whatever the value. -/
theorem Alike.reports {i : Instruction} {success : Bool} {value : Word} {flow : Flow}
    (h : Alike m n) (hr : reportOutcome i success value m = .ok flow m') (value' : Word) :
    ∃ flow' n', reportOutcome i success value' n = .ok flow' n' ∧ flow' ≠ .quit := by
  unfold reportOutcome at hr ⊢
  rw [get_bind] at hr ⊢
  rw [h.version]
  by_cases hv : m.version ≤ 3
  · rw [if_pos hv] at hr ⊢
    exact h.branches hr
  · rw [if_neg hv] at hr ⊢
    obtain ⟨n', hn⟩ := h.delivers hr value'
    exact ⟨.next, n', hn, nofun⟩

end Alike

/-! ## 3. The return to a snapshot -/

/-- What a return to a snapshot makes of the machine the snapshot was taken of: the player's flags
are those of the time of the return, the header fields of the interpreter are filled in, and the
machine goes on behind the instruction that took the snapshot. Up to version 3 that instruction
branches as if its condition holds, later it stores 2. -/
def goOn (flags : Word) (taker : Instruction) (pc : Nat) : Action Machine Flow := do
  refit flags
  modify fun m => { m with pc := pc + taker.size }
  if (← get).version ≤ 3 then
    branch taker.branch true
  else
    storeResult taker.store 2
    return .next

theorem restoreState_of_apply {snapshot : Snapshot} {story : Array UInt8} {q q' q'' : Machine}
    {flags : Word} {pc : Nat} (hflags : Header.flags2 q.memory = .ok flags)
    (happly : snapshot.apply story q = .ok pc q') (hrefit : refit flags q' = .ok () q'') :
    restoreState snapshot story q = .ok pc q'' := by
  unfold refit at hrefit
  rw [get_bind] at hrefit
  obtain ⟨own, hown, hrefit⟩ := lift_bind_eq_ok.mp hrefit
  obtain ⟨u, r, hwrite, hconfigure⟩ := bind_eq_ok.mp hrefit
  have hown : Header.flags2 q'.memory = .ok own := hown
  have hwrite : writeWord Header.flags2Addr ((own &&& ~~~keptFlags) ||| (flags &&& keptFlags)) q' =
      .ok u r := hwrite
  unfold restoreState
  rw [get_bind, hflags, bind_of_ok (lift_eq_ok.mpr ⟨rfl, rfl⟩), bind_of_ok happly, get_bind, hown,
    bind_of_ok (lift_eq_ok.mpr ⟨rfl, rfl⟩), bind_of_ok hwrite, bind_of_ok hconfigure]
  rfl

/-- A snapshot put back where memory beyond dynamic memory has not changed gives the machine it was
taken of, but for the program counter. -/
theorem apply_eq_of_capture {m q : Machine} {story : Array UInt8} {pc : Nat} {snapshot : Snapshot}
    {base : Word} (hc : Snapshot.capture m story pc = .ok snapshot)
    (hbase : Header.staticMemoryBase m.memory = .ok base)
    (hbase' : Header.staticMemoryBase q.memory = .ok base) (hsize : q.memory.size = m.memory.size)
    (hsame : m.memory.AgreeOn q.memory base.toNat m.memory.size) (hmake : SameMake m q) :
    snapshot.apply story q = .ok pc { m with pc } := by
  obtain ⟨memory, hms, hlow, hhigh, happly⟩ := Snapshot.apply_of_capture hc hbase hbase' hsize
  have hmemory : memory = m.memory := by
    refine Memory.eq_of_agreeOn hms fun a h₀ ha => ?_
    by_cases hab : a < base.toNat
    · exact hlow a h₀ hab
    · exact (hhigh a (by omega) ha).trans (hsame a (by omega) ha)
  rw [happly, hmemory, hmake.version, hmake.stackLimit]

/-- **The return to a snapshot goes on from the machine that it was taken of.** Memory must be what
it was beyond dynamic memory, and the instruction that took the snapshot must lie behind the header
and have been able to report success. -/
theorem resume_of_capture {m q m' : Machine} {story : Array UInt8} {pc : Nat} {snapshot : Snapshot}
    {base flags value : Word} {taker : Instruction} {flow : Flow}
    (hc : Snapshot.capture m story pc = .ok snapshot)
    (hbase : Header.staticMemoryBase m.memory = .ok base) (h64 : 0x40 ≤ base.toNat)
    (hd : Instruction.decode m.memory pc m.version = .ok taker) (hpc : 0x40 ≤ pc)
    (hbehind : m.pc = pc + taker.size) (hr : reportOutcome taker true value m = .ok flow m')
    (hflags : Header.flags2 q.memory = .ok flags)
    (hbase' : Header.staticMemoryBase q.memory = .ok base) (hsize : q.memory.size = m.memory.size)
    (hsame : m.memory.AgreeOn q.memory base.toNat m.memory.size) (hmake : SameMake m q) :
    ∃ flow' m'', flow' ≠ .quit ∧ goOn flags taker pc m = .ok flow' m'' ∧
      resume snapshot story q = .ok flow' m'' := by
  have hheader : Header.size ≤ m.memory.size :=
    Nat.le_trans h64 (Snapshot.base_le_of_capture hc hbase)
  have happly := apply_eq_of_capture hc hbase hbase' hsize hsame hmake
  obtain ⟨memory, hms, hbytes, hrefit⟩ := refit_eq flags m.version hheader
  have hrestore := restoreState_of_apply hflags happly (hrefit { m with pc } rfl rfl)
  -- The instruction lies behind the header, so it is still the one that took the snapshot.
  have hagree : m.memory.AgreeOn memory pc (pc + taker.size) := by
    intro a ha _
    refine hbytes a fun ho => ?_
    unfold Owned at ho
    omega
  have hdecode := Instruction.decode_agree hd hagree
  have halike : Alike m { m with memory, pc := pc + taker.size } := by
    refine ⟨rfl, hbehind.symm, rfl, rfl, rfl, hms, ?_⟩
    refine Memory.readWord_congr hms (hbytes _ ?_) (hbytes _ ?_)
    · unfold Owned
      omega
    · unfold Owned
      omega
  obtain ⟨flow', n, hn, hquit⟩ := halike.reports hr restored
  refine ⟨flow', n, hquit, ?_, ?_⟩
  · unfold goOn
    rw [bind_of_ok (hrefit m rfl rfl), modify_bind]
    exact hn
  · unfold resume
    rw [bind_of_ok hrestore, get_bind, hdecode, bind_of_ok (lift_eq_ok.mpr ⟨rfl, rfl⟩), set_bind]
    exact hn

end ZMachine.Machine
