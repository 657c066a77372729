import ZMachine.Machine.Setup
import ZMachine.Proofs.Defects
import ZMachine.Proofs.Machine.Steering

/-!
# The machine meets no defect

Variables, operands, returns, calls, and the two ways back to an earlier state: from whatever state
they start, the look-ups they rely on succeed. Locals are looked up in a running routine that has
them, since the slot was compared with their number; operands behind the first are only asked for
once there is a first; and a snapshot goes by the size that was checked.
-/

namespace ZMachine.Machine

open ZMachine.Action

/-! ## 1. Memory and the value stack -/

theorem careful_update (addr width : Nat) (change : Memory → Memory) :
    Careful (update addr width change) := by
  refine careful_bind_get fun m => ?_
  exact (careful_lift (m.memory.clean_check addr width)).bind (fun _ => careful_modify _) m

theorem careful_writeByte (addr : Nat) (value : UInt8) : Careful (writeByte addr value) :=
  careful_update _ _ _

theorem careful_writeWord (addr : Nat) (value : Word) : Careful (writeWord addr value) :=
  careful_update _ _ _

theorem careful_writeSlice (addr : Nat) (data : List UInt8) : Careful (writeSlice addr data) :=
  careful_update _ _ _

theorem careful_push (value : Word) : Careful (push value) :=
  careful_get.bind fun _ => .ite (fun _ => careful_throw nofun) fun _ => careful_set _

theorem careful_pop : Careful pop := by
  refine careful_get.bind fun m => ?_
  split
  · exact careful_throw nofun
  · exact (careful_set _).bind fun _ => careful_pure _

theorem careful_peek : Careful peek := by
  refine careful_get.bind fun m => ?_
  split
  · exact careful_throw nofun
  · exact careful_pure _

theorem careful_replaceTop (value : Word) : Careful (replaceTop value) := by
  refine careful_get.bind fun m => ?_
  split
  · exact careful_throw nofun
  · exact careful_set _

/-! ## 2. Variables -/

theorem clean_globalAddr (memory : Memory) (var : Word) : Clean (globalAddr memory var) := by
  refine .ite (fun _ => ?_) fun _ => clean_error nofun
  exact (memory.clean_readWord _).bind fun _ _ => clean_ok _

theorem careful_readGlobal (var : Word) : Careful (readGlobal var) := by
  refine careful_get.bind fun m => ?_
  refine (careful_lift (clean_globalAddr m.memory var)).bind fun addr => ?_
  exact careful_lift (m.memory.clean_readWord addr)

theorem careful_writeGlobal (var value : Word) : Careful (writeGlobal var value) := by
  refine careful_get.bind fun m => ?_
  exact (careful_lift (clean_globalAddr m.memory var)).bind fun addr => careful_writeWord addr value

theorem clean_localSlot (frames : List Frame) {var : Word} (h : var ≠ 0) :
    Clean (localSlot frames var) := by
  refine .ite (fun h₀ => absurd h₀ h) fun _ => ?_
  exact .ite (fun _ => clean_ok _) fun _ => clean_error nofun

/-- **A local is read in a running routine that has it.** -/
theorem careful_readLocal {var : Word} (h : var ≠ 0) : Careful (readLocal var) := by
  refine careful_bind_get fun m => ?_
  refine cleanAt_bind.mpr ⟨careful_lift (clean_localSlot m.frames h) m, fun slot t ht => ?_⟩
  obtain ⟨hs, rfl⟩ := lift_eq_ok.mp ht
  obtain ⟨frame, rest, hf, hlt, rfl⟩ := (localSlot_eq_ok h).mp hs
  have hl : m.frames.head?.bind (·.locals[var.toNat - 1]?) = some (frame.locals[var.toNat - 1]) := by
    rw [hf]
    exact List.getElem?_eq_getElem hlt
  rw [hl]
  exact careful_pure _ m

/-- **A local is written in a running routine that has it.** -/
theorem careful_writeLocal {var : Word} (value : Word) (h : var ≠ 0) :
    Careful (writeLocal var value) := by
  refine careful_bind_get fun m => ?_
  refine cleanAt_bind.mpr ⟨careful_lift (clean_localSlot m.frames h) m, fun slot t ht => ?_⟩
  obtain ⟨hs, rfl⟩ := lift_eq_ok.mp ht
  obtain ⟨frame, rest, hf, hlt, rfl⟩ := (localSlot_eq_ok h).mp hs
  rw [hf]
  exact .ite (fun _ => careful_set _ m) fun hn => absurd hlt hn

theorem careful_loadVar (var : Word) : Careful (loadVar var) := by
  refine .ite (fun _ => careful_pop) fun h₀ => ?_
  refine .ite (fun _ => careful_readLocal h₀) fun _ => ?_
  exact .ite (fun _ => careful_readGlobal var) fun _ => careful_throw nofun

theorem careful_storeVar (var value : Word) : Careful (storeVar var value) := by
  refine .ite (fun _ => careful_push value) fun h₀ => ?_
  refine .ite (fun _ => careful_writeLocal value h₀) fun _ => ?_
  exact .ite (fun _ => careful_writeGlobal var value) fun _ => careful_throw nofun

theorem careful_loadIndirect (var : Word) : Careful (loadIndirect var) :=
  .ite (fun _ => careful_peek) fun _ => careful_loadVar var

theorem careful_storeIndirect (var value : Word) : Careful (storeIndirect var value) :=
  .ite (fun _ => careful_replaceTop value) fun _ => careful_storeVar var value

theorem careful_storeResult (store : Option UInt8) (value : Word) :
    Careful (storeResult store value) := by
  cases store with
  | none => exact careful_pure _
  | some var => exact careful_storeVar _ value

theorem careful_currentFrame : Careful currentFrame := by
  refine careful_get.bind fun m => ?_
  split
  · exact careful_throw nofun
  · exact careful_pure _

/-! ## 3. Operands and results -/

theorem careful_resolve : ∀ operands : List Operand, Careful (resolve operands)
  | [] => careful_pure _
  | o :: rest => by
      have ho : Careful (resolveOperand o) := by
        unfold resolveOperand
        split
        · exact careful_loadVar _
        · exact careful_pure _
        · exact careful_pure _
      refine ho.bind fun value => ?_
      exact (careful_resolve rest).bind fun _ => careful_pure _

theorem careful_operand (i : Instruction) (args : List Word) (index : Nat) :
    Careful (operand i args index) := by
  unfold operand
  split
  · exact careful_pure _
  · exact careful_get.bind fun _ => careful_throw nofun

/-- **The operands behind the first are asked for only if there is a first.** -/
theorem careful_operand_bind {α : Type} (i : Instruction) (args : List Word)
    {f : Word → Action Machine α} (h : ∀ a rest, args = a :: rest → Careful (f a)) :
    Careful (operand i args 0 >>= f) := by
  cases args with
  | nil => exact careful_get.bind fun _ => careful_throw nofun
  | cons a rest => exact h a rest rfl

theorem careful_deliver (i : Instruction) (value : Word) : Careful (deliver i value) :=
  (careful_storeResult i.store value).bind fun _ => careful_pure _

/-! ## 4. Returns, jumps and calls -/

theorem careful_ret (value : Word) : Careful (ret value) := by
  refine careful_get.bind fun m => ?_
  split
  · refine (careful_set _).bind fun _ => ?_
    exact (careful_storeResult _ value).bind fun _ => careful_pure _
  · exact careful_throw nofun

theorem careful_jump (offset : Int) : Careful (jump offset) :=
  careful_get.bind fun _ => .ite (fun _ => careful_set _) fun _ => careful_throw nofun

theorem careful_branch (b : Option Branch) (condition : Bool) : Careful (branch b condition) := by
  cases b with
  | none => exact careful_pure _
  | some b =>
      refine .ite (fun _ => careful_pure _) fun _ => ?_
      refine .ite (fun _ => careful_ret 0) fun _ => ?_
      refine .ite (fun _ => careful_ret 1) fun _ => ?_
      exact (careful_jump b.offset).bind fun _ => careful_pure _

theorem clean_localCount (memory : Memory) (addr : Nat) : Clean (localCount memory addr) :=
  (memory.clean_readByte addr).bind fun _ _ => .ite (fun _ => clean_error nofun) fun _ => clean_ok _

theorem clean_readWords (memory : Memory) : ∀ count addr : Nat, Clean (readWords memory addr count)
  | 0, _ => clean_ok _
  | count + 1, addr => by
      refine (memory.clean_readWord addr).bind fun w _ => ?_
      exact (clean_readWords memory count (addr + 2)).map _

theorem clean_routineStart (memory : Memory) (version : UInt8) (addr : Nat) :
    Clean (routineStart memory version addr) := by
  refine (clean_localCount memory addr).bind fun count _ => ?_
  refine .ite (fun _ => ?_) fun _ => clean_ok _
  exact (clean_readWords memory count (addr + 1)).map _

theorem careful_call (packed : Word) (args : List Word) (store : Option UInt8) :
    Careful (call packed args store) := by
  refine .ite (fun _ => ?_) fun _ => ?_
  · exact (careful_storeResult store 0).bind fun _ => careful_pure _
  · refine careful_get.bind fun m => ?_
    refine (careful_lift (PackedAddress.clean_routine m.memory packed)).bind fun addr => ?_
    refine (careful_lift (clean_routineStart m.memory m.version addr)).bind fun _ => ?_
    exact (careful_set _).bind fun _ => careful_pure _

/-! ## 5. Back to an earlier state -/

theorem careful_configureHeader : Careful configureHeader := by
  refine careful_get.bind fun m => ?_
  have hlate : Careful (do
      if 5 ≤ m.version then
        writeWord 0x22 80
        writeWord 0x24 24
        writeByte 0x26 1
        writeByte 0x27 1
      writeWord 0x32 0x0101) := by
    refine .ite (fun _ => ?_) fun _ => careful_writeWord _ _
    refine (careful_writeWord _ _).bind fun _ => (careful_writeWord _ _).bind fun _ => ?_
    refine (careful_writeByte _ _).bind fun _ => (careful_writeByte _ _).bind fun _ => ?_
    exact careful_writeWord _ _
  refine .ite (fun _ => ?_) fun _ => ?_
  · refine (careful_lift (m.memory.clean_readByte _)).bind fun flags => ?_
    exact (careful_writeByte _ _).bind fun _ => hlate
  · refine (careful_writeByte _ _).bind fun _ => (careful_writeByte _ _).bind fun _ => ?_
    exact (careful_writeByte _ _).bind fun _ => (careful_writeByte _ _).bind fun _ => hlate

theorem careful_reset : Careful reset := by
  refine (careful_modify _).bind fun _ => careful_get.bind fun m => ?_
  refine (careful_lift (m.memory.clean_readWord _)).bind fun initial => ?_
  refine .ite (fun _ => careful_set _) fun _ => ?_
  refine (careful_lift (PackedAddress.clean_routine m.memory initial)).bind fun addr => ?_
  exact (careful_lift (clean_localCount m.memory addr)).bind fun _ => careful_set _

theorem careful_restart (story : Array UInt8) : Careful (restart story) := by
  refine careful_get.bind fun m => ?_
  refine (careful_lift (m.memory.clean_readWord _)).bind fun flags => ?_
  refine (careful_lift (m.memory.clean_readWord _)).bind fun base => ?_
  have hrest : Careful (do
      let now ← Header.flags2 (← get).memory
      writeWord Header.flags2Addr (now ||| (flags &&& keptFlags))
      reset
      configureHeader) := by
    refine careful_get.bind fun q => ?_
    refine (careful_lift (q.memory.clean_readWord _)).bind fun now => ?_
    refine (careful_writeWord _ _).bind fun _ => ?_
    exact careful_reset.bind fun _ => careful_configureHeader
  refine .ite (fun _ => ?_) fun _ => ?_
  · exact (careful_writeSlice _ _).bind fun _ => hrest
  · refine Careful.bind (careful_throw ?_) fun _ => hrest
    exact nofun

theorem careful_reportOutcome (i : Instruction) (success : Bool) (result : Word) :
    Careful (reportOutcome i success result) :=
  careful_get.bind fun _ =>
    .ite (fun _ => careful_branch i.branch success) fun _ => careful_deliver i result

/-- **A snapshot is put back by parts of the story that it has**, whatever its stored form says. -/
theorem careful_apply (snapshot : Snapshot) (story : Array UInt8) :
    Careful (snapshot.apply story) := by
  refine careful_bind_get fun m => ?_
  refine cleanAt_bind.mpr ⟨careful_lift (Snapshot.clean_dynamicSize m.memory story) m, ?_⟩
  intro size t ht
  obtain ⟨hsize, -⟩ := lift_eq_ok.mp ht
  refine (careful_lift (Snapshot.clean_storyPart hsize)).bind (fun part => ?_) t
  refine (careful_lift (Compression.clean_decompress _ part)).bind fun bytes => ?_
  refine (careful_writeSlice 0 bytes).bind fun _ => ?_
  exact (careful_modify _).bind fun _ => careful_pure _

theorem careful_restoreState (snapshot : Snapshot) (story : Array UInt8) :
    Careful (restoreState snapshot story) := by
  refine careful_get.bind fun m => ?_
  refine (careful_lift (m.memory.clean_readWord _)).bind fun flags => ?_
  refine (careful_apply snapshot story).bind fun pc => ?_
  refine careful_get.bind fun q => ?_
  refine (careful_lift (q.memory.clean_readWord _)).bind fun restoredFlags => ?_
  refine (careful_writeWord _ _).bind fun _ => ?_
  exact careful_configureHeader.bind fun _ => careful_pure _

theorem careful_resume (snapshot : Snapshot) (story : Array UInt8) :
    Careful (resume snapshot story) := by
  refine (careful_restoreState snapshot story).bind fun pc => ?_
  refine careful_get.bind fun m => ?_
  refine (careful_lift (Instruction.clean_decode m.memory pc m.version)).bind fun taker => ?_
  exact (careful_set _).bind fun _ => careful_reportOutcome taker true restored

end ZMachine.Machine
