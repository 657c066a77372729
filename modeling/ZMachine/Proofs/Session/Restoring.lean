import ZMachine.Proofs.Machine.Resuming
import ZMachine.Proofs.Session.Step

/-!
# Restoring goes on where saving left off

A snapshot is kept in one of two places: as the saved game, or as the move to take back. Whatever
the story does after it has taken one, as long as it takes no other for the same place, the return
to it goes on from the machine as it was then.

* `Shelf`                        : the two places, each with its pair of operations.
* `Session.Runs`                 : runs of steps that succeed and leave an operation out.
* `Session.shelved_of_runs`      : a snapshot stays in its place along such a run.
* `Session.taken_of_step`, `Session.step_of_shelved` : the step that takes a snapshot, and the one
  that returns to it.
* `Session.restore_goesOn`       : both, with any run in between.
-/

namespace ZMachine

open ZMachine.Action

/-! ## 1. Places for snapshots -/

/-- Where a snapshot is kept. -/
inductive Shelf where
  /-- The saved game, in a store that keeps the last one. -/
  | game
  /-- The move to take back. -/
  | move
  deriving DecidableEq, Repr

namespace Shelf

/-- The operation that puts a snapshot there. -/
def taker : Shelf → Operation
  | game => .save
  | move => .saveUndo

/-- The operation that returns to the snapshot that is there. -/
def returner : Shelf → Operation
  | game => .restore
  | move => .restoreUndo

/-- A game is saved by an instruction without operands, in a store that keeps it. -/
def Takes {H : Host} (k : Shelf) (s : Session H) (i : Instruction) : Prop :=
  match k with
  | game => i.operands = [] ∧ ∃ held, s.saves = some (.slot held)
  | move => True

/-- A game is restored by an instruction without operands. -/
def Returns (k : Shelf) (i : Instruction) : Prop :=
  match k with
  | game => i.operands = []
  | move => True

end Shelf

/-- A move can be kept from version 5 on. -/
theorem Operation.version_of_saveUndo {opcode : Opcode} {version : UInt8}
    (h : Operation.standard.lookup opcode version = some .saveUndo) : ¬ version ≤ 3 := by
  obtain ⟨entry, hmem, -, ht, hle⟩ := DispatchTable.lookup_eq_some h
  have hfirst : ∀ e ∈ Operation.standard.entries, e.target = .saveUndo → 5 ≤ e.first := by decide
  have h5 := hfirst entry hmem ht
  rw [UInt8.le_iff_toNat_le] at hle h5 ⊢
  have h5' : 5 ≤ entry.first.toNat := h5
  show ¬ version.toNat ≤ 3
  omega

namespace Session

variable {H : Host} {s t u : Session H} {k : Shelf} {i : Instruction} {flow : Flow}

/-! ## 2. Runs -/

/-- A run of steps that succeed, none of which carries the operation out. -/
inductive Runs (leftOut : Operation) (s : Session H) : Session H → Prop where
  | start : Runs leftOut s s
  | step {t u : Session H} {flow : Flow} (h : Runs leftOut s t) (hn : ∀ i, ¬ t.Executes i leftOut)
      (hs : step t = .ok flow u) : Runs leftOut s u

/-- A run can be computed step by step. -/
theorem Runs.following {leftOut : Operation} {n : Nat} (h : Runs leftOut t (s.following n))
    (hop : (s.following n).operation? ≠ some leftOut) (hf : (s.following n).flow?.isSome) :
    Runs leftOut t (s.following (n + 1)) := by
  obtain ⟨flow, hflow⟩ := Option.isSome_iff_exists.mp hf
  exact .step h (fun _ he => hop he.operation?_eq) (step_following hflow)

/-- What such a run leaves alone: the story, what was settled when it was loaded, and the snapshot
that only the operation replaces. -/
structure Shelved (k : Shelf) (s t : Session H) : Prop where
  story : t.story = s.story
  machine : Machine.SameMake s.machine t.machine
  snapshot : ∀ args, t.snapshotFor k.returner args = s.snapshotFor k.returner args

theorem Lasting.shelved {op : Operation} (h : Lasting op s t) (hop : op ≠ k.taker) :
    Shelved k s t := by
  refine ⟨h.story, h.machine, fun args => ?_⟩
  cases k with
  | game =>
      show (if args.isEmpty then t.saves.bind SaveStore.held? else none) = _
      rw [h.saves hop]
      rfl
  | move => exact h.undo hop

/-- One step. -/
theorem shelved_of_step (hn : ∀ i, ¬ s.Executes i k.taker) (h : step s = .ok flow t) :
    Shelved k s t := by
  obtain ⟨i, op, he, hl⟩ := step_lasting h
  exact hl.shelved fun hop => hn i (hop ▸ he)

/-- **A snapshot stays in its place along every run that takes no other for it.** -/
theorem shelved_of_runs (h : Runs k.taker s t) : Shelved k s t := by
  induction h with
  | start => exact ⟨rfl, ⟨rfl, rfl⟩, fun _ => rfl⟩
  | step _ hn hs ih =>
      have h := shelved_of_step hn hs
      exact ⟨h.story.trans ih.story, ih.machine.trans h.machine,
        fun args => (h.snapshot args).trans (ih.snapshot args)⟩

/-! ## 3. Taking a snapshot and returning to it -/

/-- A step that takes a snapshot has taken it of the machine with its operands read, has put it in
its place, and has reported success. -/
structure Taken (k : Shelf) (s : Session H) (i : Instruction) (m : Machine) (t : Session H) :
    Prop where
  story : t.story = s.story
  machine : Machine.SameMake m t.machine
  snapshot : ∃ snapshot, Snapshot.capture m s.story s.machine.pc = .ok snapshot ∧
    ∀ args, (k = .game → args = []) → t.snapshotFor k.returner args = some snapshot
  report : ∃ value flow m', Machine.reportOutcome i true value m = .ok flow m'

theorem takeSnapshot_eq_ok {snapshot : Snapshot} :
    Handler.takeSnapshot s = .ok snapshot t ↔
      Snapshot.capture s.machine s.story s.currentPc = .ok snapshot ∧ s = t := by
  unfold Handler.takeSnapshot
  rw [get_bind]
  exact lift_eq_ok

theorem taken_of_save {m : Machine} {held : Option Snapshot} (hs : s.saves = some (.slot held))
    (h : Handler.save i [] (s.ready i m) = .ok flow t) : Taken .game s i m t := by
  unfold Handler.save at h
  rw [if_pos List.isEmpty_nil] at h
  obtain ⟨snapshot, r, hsnapshot, h⟩ := bind_eq_ok.mp h
  obtain ⟨hcapture, rfl⟩ := takeSnapshot_eq_ok.mp hsnapshot
  have hs' : (s.ready i m).saves = some (.slot held) := hs
  rw [get_bind, hs'] at h
  obtain ⟨⟨saved, store⟩, hsave, h⟩ := lift_bind_eq_ok.mp h
  cases hsave
  dsimp only at h
  rw [modify_bind] at h
  obtain ⟨m', hm, rfl⟩ := onMachine_eq_ok.mp h
  refine ⟨rfl, ((Machine.steers_reportOutcome true 1).ok hm).sameMake, ⟨snapshot, hcapture, ?_⟩,
    1, flow, m', hm⟩
  intro args hargs
  rw [hargs rfl]
  rfl

theorem taken_of_saveUndo {m : Machine} {args : List Word} (hv : ¬ m.version ≤ 3)
    (h : Handler.saveUndo i args (s.ready i m) = .ok flow t) : Taken .move s i m t := by
  unfold Handler.saveUndo at h
  obtain ⟨snapshot, r, hsnapshot, h⟩ := bind_eq_ok.mp h
  obtain ⟨hcapture, rfl⟩ := takeSnapshot_eq_ok.mp hsnapshot
  rw [modify_bind] at h
  obtain ⟨m', hm, rfl⟩ := onMachine_eq_ok.mp h
  have hreport : Machine.reportOutcome i true 1 m = .ok flow m' := by
    unfold Machine.reportOutcome
    rw [get_bind, if_neg hv]
    exact hm
  exact ⟨rfl, ((Machine.steers_reportOutcome true 1).ok hreport).sameMake,
    ⟨snapshot, hcapture, fun _ _ => rfl⟩, 1, flow, m', hreport⟩

theorem reads_nil {args : List Word} {m : Machine} (hi : i.operands = []) (h : s.Reads i args m) :
    args = [] := by
  unfold Reads at h
  rw [hi] at h
  cases h
  rfl

/-- **A step that takes a snapshot and succeeds keeps it.** -/
theorem taken_of_step (he : s.Executes i k.taker) (hk : k.Takes s i) (h : step s = .ok flow t) :
    ∃ args m, s.Reads i args m ∧ Taken k s i m t := by
  obtain ⟨j, op, args, m, u, he', hr, hp, sink, state, rfl⟩ := step_eq_ok h
  obtain ⟨rfl, rfl⟩ := he.unique he'
  refine ⟨args, m, hr, ?_⟩
  cases k with
  | game =>
      obtain ⟨hi, held, hs⟩ := hk
      rw [reads_nil hi hr] at hp
      have ht := taken_of_save hs hp
      exact ⟨ht.story, ht.machine, ht.snapshot, ht.report⟩
  | move =>
      have hv : ¬ m.version ≤ 3 := by
        rw [hr.popped.quiet.version]
        exact Operation.version_of_saveUndo he.found
      have hp : Handler.saveUndo i args (s.ready i m) = .ok flow u := hp
      have ht := taken_of_saveUndo hv hp
      exact ⟨ht.story, ht.machine, ht.snapshot, ht.report⟩

/-- A step that returns to the snapshot in a place resumes it. -/
theorem step_of_shelved {args : List Word} {m m' : Machine} {snapshot : Snapshot}
    (he : s.Executes i k.returner) (hr : s.Reads i args m)
    (hs : s.snapshotFor k.returner args = some snapshot)
    (h : Machine.resume snapshot s.story m = .ok flow m') (hq : flow ≠ .quit) :
    step s = .ok flow { s.ready i m with machine := m' } := by
  have hresume : Handler.resumeFrom snapshot (s.ready i m) =
      .ok flow { s.ready i m with machine := m' } := by
    unfold Handler.resumeFrom
    rw [get_bind]
    exact onMachine_eq_ok.mpr ⟨m', h, rfl⟩
  have hs' : (s.ready i m).snapshotFor k.returner args = some snapshot := hs
  refine step_of_perform he hr ?_ hq
  cases k with
  | game => exact (Handler.restore_of_snapshotFor hs').trans hresume
  | move => exact (Handler.restoreUndo_of_snapshotFor hs').trans hresume

/-! ## 4. Both, with a run in between -/

/-- **Restoring goes on where saving left off.** A step has taken a snapshot, with an instruction
behind the header and dynamic memory that holds all of it. After any run that takes no other for the
same place, if dynamic memory has the size it had and all memory beyond it the bytes it had, the
return to the snapshot succeeds and leaves exactly the machine that the machine of then becomes:
with the player's flags of now, the interpreter's header fields filled in, and behind the
instruction that took the snapshot, which has branched as if its condition holds or has stored 2. -/
theorem restore_goesOn {s₁ : Session H} {j : Instruction} {base : Word} {args : List Word}
    {q : Machine} (he : s.Executes i k.taker) (hk : k.Takes s i)
    (hbase : Header.staticMemoryBase s.machine.memory = .ok base) (h64 : 0x40 ≤ base)
    (hpc : 0x40 ≤ s.machine.pc) (hs : step s = .ok flow s₁) (hrun : Runs k.taker s₁ t)
    (he' : t.Executes j k.returner) (hk' : k.Returns j) (hr' : t.Reads j args q)
    (hbase' : Header.staticMemoryBase t.machine.memory = .ok base)
    (hsize : t.machine.memory.size = s.machine.memory.size)
    (hsame : s.machine.memory.AgreeOn t.machine.memory base.toNat s.machine.memory.size) :
    ∃ args m flags flow' u, s.Reads i args m ∧ Header.flags2 t.machine.memory = .ok flags ∧
      step t = .ok flow' u ∧ Machine.goOn flags i s.machine.pc m = .ok flow' u.machine := by
  obtain ⟨args₀, m, hr, ht⟩ := taken_of_step he hk hs
  obtain ⟨snapshot, hcapture, hplace⟩ := ht.snapshot
  obtain ⟨value, flow₀, m', hreport⟩ := ht.report
  have hkept := shelved_of_runs hrun
  have hmake : Machine.SameMake m t.machine := ht.machine.trans hkept.machine
  obtain ⟨n, rfl⟩ := hr.popped
  have h64' : 0x40 ≤ base.toNat := UInt16.le_iff_toNat_le.mp h64
  have hle := Snapshot.base_le_of_capture hcapture hbase
  have hheader : Header.size ≤ s.machine.memory.size := Nat.le_trans h64' hle
  obtain ⟨flags, hflags⟩ := Machine.flags2_of_header (hsize.symm ▸ hheader)
  have hargs : k = .game → args = [] := by
    rintro rfl
    exact reads_nil hk' hr'
  have hsnapshot : t.snapshotFor k.returner args = some snapshot :=
    (hkept.snapshot args).trans (hplace args hargs)
  have hmemory : q.memory = t.machine.memory := hr'.memory
  obtain ⟨flow', m'', hquit, hgoes, hresume⟩ := Machine.resume_of_capture hcapture hbase h64'
    he.decoded hpc rfl hreport (hmemory ▸ hflags) (hmemory ▸ hbase') (hmemory ▸ hsize)
    (hmemory ▸ hsame) (hmake.trans hr'.sameMake)
  rw [← ht.story, ← hkept.story] at hresume
  have hstep := step_of_shelved he' hr' hsnapshot hresume hquit
  exact ⟨args₀, _, flags, flow', _, hr, hflags, hstep, hgoes⟩

/-- A session in version 5 about to keep a move, change a global, set the flag for fixed pitch, and
take the move back. -/
def undoing : Session Host.standard :=
  bare
    { memory := ⟨#[5, 0, 0, 0, 0, 0, 0, 0, 0, 0, 0, 0, 0, 0x40, 0, 0x48,
        0, 0, 0, 0, 0, 0, 0, 0, 0, 0, 0, 0, 0, 0, 0, 0,
        0, 0, 0, 0, 0, 0, 0, 0, 0, 0, 0, 0, 0, 0, 0, 0,
        0, 0, 0, 0, 0, 0, 0, 0, 0, 0, 0, 0, 0, 0, 0, 0,
        0, 0, 0, 0, 0, 0, 0, 0, 0xbe, 9, 0xff, 0, 0x0d, 0x10, 7, 0xe2,
        0x57, 0, 0x11, 2, 0xbe, 0x0a, 0xff, 0]⟩
      version := 5
      pc := 0x48
      stack := []
      frames := [Frame.main []]
      stackLimit := 1024 }

/-- A session in version 3, with a store for saved games, about to save, change a global, and
restore. -/
def saving : Session Host.standard :=
  { bare
      { memory := ⟨#[3, 0, 0, 0, 0, 0, 0, 0, 0, 0, 0, 0, 0, 0x40, 0, 0x48,
          0, 0, 0, 0, 0, 0, 0, 0, 0, 0, 0, 0, 0, 0, 0, 0,
          0, 0, 0, 0, 0, 0, 0, 0, 0, 0, 0, 0, 0, 0, 0, 0,
          0, 0, 0, 0, 0, 0, 0, 0, 0, 0, 0, 0, 0, 0, 0, 0,
          0, 0, 0, 0, 0, 0, 0, 0, 0xb5, 0xc7, 0xba, 0, 0, 0, 0, 0x0d,
          0x10, 7, 0xb6, 0xc2]⟩
        version := 3
        pc := 0x48
        stack := [5]
        frames := [Frame.main []]
        stackLimit := 1024 } with
    saves := some (.slot none) }

/-- The instruction that keeps a move, and reports it on the stack. -/
def keepingMove : Instruction :=
  { opcode := ⟨.ext, 9⟩
    form := .extended
    operands := []
    store := some 0
    branch := none
    textAddr := none
    size := 4 }

/-- The instruction that takes the move back. -/
def takingBack : Instruction :=
  { opcode := ⟨.ext, 0x0a⟩
    form := .extended
    operands := []
    store := some 0
    branch := none
    textAddr := none
    size := 4 }

/-- The instruction that saves or restores a game, and branches if it succeeds. -/
def branching (number : UInt8) (offset : Int) : Instruction :=
  { opcode := ⟨.op0, number⟩
    form := .short
    operands := []
    store := none
    branch := some ⟨true, offset⟩
    textAddr := none
    size := 2 }

/-- The move that was kept reports 2 where it is taken back, the flag outlasts the return, and the
height of the screen is filled in. The game that was saved branches once more where it is restored.
The globals are what they were. -/
theorem undoing_goesOn :
    ((undoing.Executes keepingMove .saveUndo ∧
        step undoing = .ok .next (undoing.following 1) ∧
        Runs .saveUndo (undoing.following 1) (undoing.following 3) ∧
        (undoing.following 3).Executes takingBack .restoreUndo ∧
        (undoing.following 3).machine.memory.bytes[0x41]? = some 7) ∧
      (∃ args m, undoing.Reads keepingMove args m ∧
        Machine.goOn 2 keepingMove 0x48 m = .ok .next (undoing.following 4).machine) ∧
      step (undoing.following 3) = .ok .next (undoing.following 4) ∧
      (undoing.following 4).machine.pc = 0x4c ∧ (undoing.following 4).machine.stack = [2] ∧
      (undoing.following 4).machine.memory.bytes[0x41]? = some 0 ∧
      (undoing.following 4).machine.memory.bytes[0x11]? = some 2 ∧
      (undoing.following 4).machine.memory.bytes[0x20]? = some 24) ∧
    (saving.Executes (branching 5 7) .save ∧
        step saving = .ok .branched (saving.following 1) ∧
        Runs .save (saving.following 1) (saving.following 2) ∧
        (saving.following 2).Executes (branching 6 2) .restore ∧
        (saving.following 2).machine.memory.bytes[0x41]? = some 7) ∧
      (∃ args m, saving.Reads (branching 5 7) args m ∧
        Machine.goOn 0 (branching 5 7) 0x48 m = .ok .branched (saving.following 3).machine) ∧
      step (saving.following 2) = .ok .branched (saving.following 3) ∧
      (saving.following 3).machine.pc = 0x4f ∧ (saving.following 3).machine.stack = [5] ∧
      (saving.following 3).machine.memory.bytes[0x41]? = some 0 := by
  constructor
  · have he : undoing.Executes keepingMove Shelf.move.taker := ⟨rfl, rfl, rfl⟩
    have h₀ : step (undoing.following 0) = .ok .next (undoing.following 1) :=
      step_following (by decide +kernel)
    have h₁₂ : Runs Shelf.move.taker (undoing.following 1) (undoing.following 2) :=
      Runs.start.following (by decide +kernel) (by decide +kernel)
    have hrun : Runs Shelf.move.taker (undoing.following 1) (undoing.following 3) :=
      h₁₂.following (by decide +kernel) (by decide +kernel)
    -- What is to be computed before the return and after it is computed together.
    obtain ⟨⟨hrunning, hdecode, hlookup⟩, ⟨hstatic, hword⟩, hsize, hbytes, hglobal⟩ :
        ((undoing.following 3).state = .running ∧
          (Instruction.decode (undoing.following 3).machine.memory (undoing.following 3).machine.pc
            (undoing.following 3).machine.version).toOption = some takingBack ∧
          Operation.standard.lookup takingBack.opcode (undoing.following 3).machine.version =
            some .restoreUndo) ∧
        ((Header.staticMemoryBase (undoing.following 3).machine.memory).toOption = some 0x48 ∧
          (Header.flags2 (undoing.following 3).machine.memory).toOption = some 2) ∧
        (undoing.following 3).machine.memory.size = undoing.machine.memory.size ∧
        (∀ a < 0x58, 0x48 ≤ a →
          (undoing.following 3).machine.memory.bytes[a]? = undoing.machine.memory.bytes[a]?) ∧
        (undoing.following 3).machine.memory.bytes[0x41]? = some 7 := by
      decide +kernel
    obtain ⟨hflow, hafter⟩ :
        (undoing.following 3).flow? = some .next ∧
          (undoing.following 4).machine.pc = 0x4c ∧ (undoing.following 4).machine.stack = [2] ∧
          (undoing.following 4).machine.memory.bytes[0x41]? = some 0 ∧
          (undoing.following 4).machine.memory.bytes[0x11]? = some 2 ∧
          (undoing.following 4).machine.memory.bytes[0x20]? = some 24 := by
      decide +kernel
    have h₃ := step_following hflow
    have he' : (undoing.following 3).Executes takingBack Shelf.move.returner :=
      ⟨hrunning, eq_ok_of_toOption hdecode, hlookup⟩
    have hr' : (undoing.following 3).Reads takingBack [] _ := rfl
    obtain ⟨args, m, flags, flow, u, hr, hf, hs, hg⟩ :=
      restore_goesOn he trivial rfl (by decide) (by decide) h₀ hrun he' trivial hr'
        (eq_ok_of_toOption hstatic) hsize fun a ha hlt => hbytes a hlt ha
    cases hs.symm.trans h₃
    cases hf.symm.trans (eq_ok_of_toOption hword)
    exact ⟨⟨he, h₀, hrun, he', hglobal⟩, ⟨args, m, hr, hg⟩, h₃, hafter⟩
  · have he : saving.Executes (branching 5 7) Shelf.game.taker := ⟨rfl, rfl, rfl⟩
    have h₀ : step (saving.following 0) = .ok .branched (saving.following 1) :=
      step_following (by decide +kernel)
    have hrun : Runs Shelf.game.taker (saving.following 1) (saving.following 2) :=
      Runs.start.following (by decide +kernel) (by decide +kernel)
    obtain ⟨⟨hrunning, hdecode, hlookup⟩, ⟨hstatic, hword⟩, hsize, hbytes, hglobal⟩ :
        ((saving.following 2).state = .running ∧
          (Instruction.decode (saving.following 2).machine.memory (saving.following 2).machine.pc
            (saving.following 2).machine.version).toOption = some (branching 6 2) ∧
          Operation.standard.lookup (branching 6 2).opcode (saving.following 2).machine.version =
            some .restore) ∧
        ((Header.staticMemoryBase (saving.following 2).machine.memory).toOption = some 0x48 ∧
          (Header.flags2 (saving.following 2).machine.memory).toOption = some 0) ∧
        (saving.following 2).machine.memory.size = saving.machine.memory.size ∧
        (∀ a < 0x54, 0x48 ≤ a →
          (saving.following 2).machine.memory.bytes[a]? = saving.machine.memory.bytes[a]?) ∧
        (saving.following 2).machine.memory.bytes[0x41]? = some 7 := by
      decide +kernel
    obtain ⟨hflow, hafter⟩ :
        (saving.following 2).flow? = some .branched ∧
          (saving.following 3).machine.pc = 0x4f ∧ (saving.following 3).machine.stack = [5] ∧
          (saving.following 3).machine.memory.bytes[0x41]? = some 0 := by
      decide +kernel
    have h₂ := step_following hflow
    have he' : (saving.following 2).Executes (branching 6 2) Shelf.game.returner :=
      ⟨hrunning, eq_ok_of_toOption hdecode, hlookup⟩
    have hr' : (saving.following 2).Reads (branching 6 2) [] _ := rfl
    obtain ⟨args, m, flags, flow, u, hr, hf, hs, hg⟩ :=
      restore_goesOn he ⟨rfl, none, rfl⟩ rfl (by decide) (by decide) h₀ hrun he' rfl hr'
        (eq_ok_of_toOption hstatic) hsize fun a ha hlt => hbytes a hlt ha
    cases hs.symm.trans h₂
    cases hf.symm.trans (eq_ok_of_toOption hword)
    exact ⟨⟨he, h₀, hrun, he', hglobal⟩, ⟨args, m, hr, hg⟩, h₂, hafter⟩

end Session

end ZMachine
