import ZMachine.Proofs.Decoding
import ZMachine.Proofs.Session.Step

/-!
# The flow tells where a step leads

A step reports how execution goes on. Unless it put an earlier state in place of the present one,
program counter and call frames are then exactly what the report says, for every instruction of
every version.

* `Machine.pc_of_jumped`, `Machine.return_of_left`, `Machine.start_of_entered` : the three
  transfers.
* `Session.AsTold`      : what a flow says about the session after a step.
* `Session.step_asTold` : it is so after every step.
-/

namespace ZMachine

/-! ## 1. The transfers -/

namespace Machine

open ZMachine.Action

/-- A jump from a place in memory is counted from that place. -/
theorem pc_of_jumped {offset : Int} {m q m' : Machine} (hq : Quiet m q) (h : Jumped offset q m')
    (hpc : m.pc ≤ m.memory.size) :
    (m'.pc : Int) = m.pc + offset - 2 ∧ m'.pc < m'.memory.size ∧ m'.depth = m.depth := by
  obtain ⟨pc, hp, hlt, rfl⟩ := h
  unfold jumpOrigin at hp
  rw [hq.pc, hq.size trivial, if_pos hpc] at hp
  exact ⟨hp, hlt, hq.depth⟩

/-- The frames of two machines with the same shapes return to the same places. -/
theorem returnPc_of_shapes {frames frames' : List Frame} {n : Nat} {frame : Frame}
    (hs : frames'.map Frame.shape = frames.map Frame.shape) (h : frames'.reverse[n]? = some frame) :
    ∃ f, frames.reverse[n]? = some f ∧ frame.returnPc = f.returnPc := by
  have hn : (frames.map Frame.shape).reverse[n]? = some frame.shape := by
    rw [← hs, ← List.map_reverse, List.getElem?_map, h]
    rfl
  rw [← List.map_reverse, List.getElem?_map] at hn
  obtain ⟨f, hf, hshape⟩ := Option.map_eq_some_iff.mp hn
  exact ⟨f, hf, (congrArg Prod.fst hshape).symm⟩

/-- A return leads to the place that the frame of the routine it leaves names. -/
theorem return_of_left {value : Word} {m q m' : Machine} (hq : Quiet m q) (h : Left value q m') :
    1 ≤ m'.depth ∧ m'.depth < m.depth ∧
      ∃ frame, m.frames.reverse[m'.depth]? = some frame ∧ m'.pc = frame.returnPc := by
  cases h with
  | mk frame caller rest hf hs =>
      have hq' := (keeps_storeResult frame.returnStore value).ok hs
      have hd : m'.depth = rest.length + 1 := hq'.depth
      obtain ⟨above, ha⟩ := hf
      have hm : m.depth = above.length + (rest.length + 2) := by
        rw [← hq.depth]
        unfold Machine.depth
        rw [← ha, List.length_append, List.length_cons, List.length_cons]
      have hget : q.frames.reverse[m'.depth]? = some frame := by
        rw [hd, ← ha, List.reverse_append, List.reverse_cons, List.append_assoc,
          List.getElem?_append_right (by simp)]
        simp
      obtain ⟨f, hf, hpc⟩ := returnPc_of_shapes hq.shapes hget
      exact ⟨by omega, by omega, f, hf, hq'.pc.trans hpc⟩

/-- A routine is entered at its first instruction. -/
theorem start_of_entered {packed : Word} {args : List Word} {store : Option UInt8} {m m' : Machine}
    (h : Entered packed args store m m') :
    ∃ addr count frame, PackedAddress.routine m.memory packed = .ok addr ∧
      m.memory.readByte addr = .ok count ∧ count.toNat ≤ maxLocals ∧
      m'.frames = frame :: m.frames ∧ frame.returnPc = m.pc ∧
      m'.pc = if m.version ≤ 4 then addr + 1 + 2 * count.toNat else addr + 1 := by
  cases h with
  | mk addr locals pc ha hs =>
      obtain ⟨count, hb, hle, -, hpc⟩ := routineStart_eq_ok hs
      exact ⟨addr, count, _, ha, hb, hle, rfl, rfl, hpc⟩

end Machine

/-! ## 2. Steps -/

namespace Session

variable {H : Host} {s t : Session H} {i : Instruction} {op : Operation} {flow : Flow}

/-- What a flow says about the session after a step. To go on or to stop is to be behind the
instruction in the same routine. A branch leads by the distance in the instruction, or by the
operand of a jump, to a place in memory. A call adds the frame of a routine, which returns behind
the instruction, and leads to that routine's first instruction. A return drops frames, not all of
them, and leads to where the lowest of those it dropped returns to. -/
def AsTold (s : Session H) (i : Instruction) (op : Operation) (args : List Word) (t : Session H) :
    Flow → Prop
  | .next | .quit =>
      t.machine.pc = s.machine.pc + i.size ∧ t.machine.depth = s.machine.depth
  | .branched =>
      t.machine.depth = s.machine.depth ∧ t.machine.pc < t.machine.memory.size ∧
      ∃ offset : Int, (t.machine.pc : Int) = s.machine.pc + i.size + offset - 2 ∧
        ((∃ b, i.branch = some b ∧ offset = b.offset ∧ offset ≠ 0 ∧ offset ≠ 1) ∨
          op = .jump ∧ ∃ a, args[0]? = some a ∧ offset = a.toInt16.toInt)
  | .called =>
      t.machine.depth = s.machine.depth + 1 ∧
      ∃ packed addr count frame, args[0]? = some packed ∧
        PackedAddress.routine s.machine.memory packed = .ok addr ∧
        s.machine.memory.readByte addr = .ok count ∧ count.toNat ≤ 15 ∧
        t.machine.frames = frame :: s.machine.frames ∧
        frame.returnPc = s.machine.pc + i.size ∧
        t.machine.pc = if s.machine.version ≤ 4 then addr + 1 + 2 * count.toNat else addr + 1
  | .returned _ =>
      1 ≤ t.machine.depth ∧ t.machine.depth < s.machine.depth ∧
      ∃ frame, s.machine.frames.reverse[t.machine.depth]? = some frame ∧
        t.machine.pc = frame.returnPc

/-- **The flow that a step reports tells where it leads**, for every operation but a restart and the
two kinds of restore. -/
theorem step_asTold (he : s.Executes i op) (h₁ : op ≠ .restart) (h₂ : op ≠ .restore)
    (h₃ : op ≠ .restoreUndo) (h : step s = .ok flow t) :
    ∃ args m, s.Reads i args m ∧ AsTold s i op args t flow := by
  obtain ⟨j, op', args, m, he', hr, hl⟩ := step_leads (not_stepsBack he h₁ h₂ h₃) h
  obtain ⟨rfl, rfl⟩ := he.unique he'
  refine ⟨args, m, hr, ?_⟩
  obtain ⟨n, rfl⟩ := hr.popped
  have hle : s.machine.pc + i.size ≤ s.machine.memory.size :=
    Instruction.end_le_of_decode he.decoded
  cases hl with
  | goes hg =>
      cases hg with
      | next hc => exact ⟨hc.pc, hc.depth⟩
      | quit hc => exact ⟨hc.pc, hc.depth⟩
      | branched b hq hb h₀ h₁ hj =>
          obtain ⟨hpc, hlt, hd⟩ := Machine.pc_of_jumped hq hj hle
          exact ⟨hd, hlt, b.offset, hpc, .inl ⟨b, hb, rfl, h₀, h₁⟩⟩
      | jumped a hq ha hj =>
          obtain ⟨hpc, hlt, hd⟩ := Machine.pc_of_jumped hq hj hle
          refine ⟨hd, hlt, _, hpc, .inr ?_⟩
          unfold Operation.leap at ha
          split at ha
          · exact ⟨rfl, a, ha, rfl⟩
          · cases ha
      | returned hq hleft =>
          have hret := Machine.return_of_left hq hleft
          exact hret
  | enters packed rest hop ha hent =>
      obtain ⟨addr, count, frame, hR, hL, hcount, hframes, hret, hpc⟩ := Machine.start_of_entered hent
      refine ⟨?_, packed, addr, count, frame, ?_, hR, hL, hcount, hframes, hret, hpc⟩
      · show t.machine.frames.length = s.machine.frames.length + 1
        rw [hframes]
        rfl
      · rw [ha]
        rfl

/-- A session whose next instruction calls a routine with two locals, in version 3. -/
def calling : Session Host.standard :=
  bare
    { memory := ⟨#[3, 0, 0, 0, 0, 0, 0, 0, 0, 0, 0, 0, 0, 0, 0, 0,
        0xe0, 0x3f, 0x00, 0x0c, 0x00, 0, 0, 0, 2, 0, 1, 0, 2, 0xb0, 0, 0]⟩
      version := 3
      pc := 0x10
      stack := []
      frames := [Frame.main []]
      stackLimit := 1024 }

theorem calling_asTold :
    ∃ i t, calling.Executes i .call ∧ step calling = .ok .called t ∧ t.machine.pc = 0x1d ∧
      ∃ args m, calling.Reads i args m ∧ AsTold calling i .call args t .called := by
  have he : calling.Executes _ .call := ⟨rfl, rfl, rfl⟩
  exact ⟨_, _, he, rfl, rfl, step_asTold he (by decide) (by decide) (by decide) rfl⟩

end Session

end ZMachine
