import ZMachine.Proofs.Machine.Restarting
import ZMachine.Proofs.Session.Bounds
import ZMachine.Proofs.Session.Restoring

/-!
# A restart is a fresh load

Whatever a story has done, a restart leaves it where it was right after it had been loaded, provided
it has left alone what a restart does not reload. Of the player's flags a restart keeps those that
are set, and brings back those that the story comes with; a return to a snapshot keeps them all as
they are.

* `Session.origin_of_reached` : a session keeps the story and the version it was loaded with.
* `Session.AsLoaded`, `restart_asLoaded` : a restart, after any run.
* `Session.PassesFlags`, `step_passesFlags` : the player's flags in a step that turns back.
-/

namespace ZMachine.Session

open ZMachine.Action

variable {H : Host} {s t : Session H} {image : Array UInt8} {i : Instruction} {op : Operation}
  {flow : Flow}

/-! ## 1. Where a session comes from -/

/-- A step, whether it succeeds or fails, keeps the story and what was settled when it was
loaded. -/
theorem Next.origin (hn : Next s t) : t.story = s.story ∧ Machine.SameMake s.machine t.machine := by
  rcases hn with ⟨flow, hn⟩ | ⟨e, hn⟩
  · obtain ⟨i, op, -, hl⟩ := step_lasting hn
    exact ⟨hl.story, hl.machine⟩
  · cases step_eq_error hn with
    | finished _ => exact ⟨rfl, ⟨rfl, rfl⟩⟩
    | undecoded _ _ => exact ⟨rfl, ⟨rfl, rfl⟩⟩
    | unknown i _ => exact ⟨rfl, ⟨rfl, rfl⟩⟩
    | unread i m _ hm => exact ⟨rfl, ⟨hm.quiet.version, hm.quiet.stackLimit⟩⟩
    | failed i op args m u _ hr hp =>
        have hs := (Operation.spares_perform op i args).error hp
        exact ⟨hs.story, hr.sameMake.trans hs.machine⟩
    | unflushed i op args m u sink _ hr hp =>
        have hs := (Operation.spares_perform op i args).ok hp
        exact ⟨hs.story, hr.sameMake.trans hs.machine⟩

/-- **Every session that a story comes to has that story and its version.** -/
theorem origin_of_reached (h : Reached image s) :
    s.story = image ∧ image[0]? = some s.machine.version := by
  induction h with
  | fresh h =>
      have hs := (sound_of_fresh h).1
      exact ⟨hs.story, hs.version⟩
  | next _ hn ih =>
      obtain ⟨hstory, hmake⟩ := hn.origin
      exact ⟨hstory.trans ih.1, hmake.version ▸ ih.2⟩

/-! ## 2. Restarts -/

/-- What a step that starts the story again does. -/
theorem restart_of_step (he : s.Executes i .restart) (h : step s = .ok flow t) :
    ∃ args m m', s.Reads i args m ∧ Machine.restart s.story m = .ok () m' ∧ t.machine = m' ∧
      t.streams = {} := by
  obtain ⟨j, op, args, m, u, he', hr, hp, sink, state, rfl⟩ := step_eq_ok h
  obtain ⟨rfl, rfl⟩ := he.unique he'
  have hp : Handler.restart i args (s.ready i m) = .ok flow u := hp
  unfold Handler.restart at hp
  rw [get_bind] at hp
  obtain ⟨⟨⟩, q, hm, hp⟩ := bind_eq_ok.mp hp
  obtain ⟨m', hrestart, rfl⟩ := onMachine_eq_ok.mp hm
  rw [modify_bind] at hp
  cases hp
  exact ⟨args, m, m', hr, hrestart, rfl, rfl⟩

/-- The session is at the start of its story, as the other one is, which has just been loaded: the
machine is the same but for the player's flags, the sink is selected and no table is open. -/
structure AsLoaded (s₀ t : Session H) : Prop where
  machine : Machine.Renewed s₀.machine t.machine
  sink : t.streams.sink = true
  tables : t.streams.tables = []

/-- **A restart is a fresh load.** Whatever has happened since a story was loaded, if its dynamic
memory still ends where the story says, behind the header, and every byte from there on is what it
was right after loading, a restart that succeeds leads back to that moment. -/
theorem restart_asLoaded {input : Input} {sink : Sink} {entropy : UInt64} {s₀ : Session H}
    {base : Word} (hload : load image input sink entropy = .ok s₀) (hr : Reached image s)
    (hbase : Header.staticMemoryBase ⟨image⟩ = .ok base) (h64 : 0x40 ≤ base)
    (hkept : Header.staticMemoryBase s.machine.memory = Header.staticMemoryBase ⟨image⟩)
    (hrest : ∀ a, base.toNat ≤ a → s.machine.memory.bytes[a]? = s₀.machine.memory.bytes[a]?)
    (he : s.Executes i .restart) (h : step s = .ok flow t) : AsLoaded s₀ t := by
  obtain ⟨args, m, m', hreads, hm, hmachine, hstreams⟩ := restart_of_step he h
  obtain ⟨hstory, hversion⟩ := origin_of_reached hr
  have hversion₀ := (sound_of_load hload).1.version
  obtain ⟨m₀, hm₀, hload⟩ := except_bind_eq_ok.mp hload
  cases hc : Machine.configureHeader m₀ with
  | error e q =>
      rw [hc] at hload
      cases hload
  | ok u m₁ =>
      rw [hc] at hload
      cases hload
      have hmake : m.version = m₁.version := by
        rw [hreads.sameMake.version]
        exact Option.some.inj (hversion.symm.trans hversion₀)
      rw [hstory] at hm
      have hrenewed : Machine.Renewed m₁ m' := by
        refine Machine.renewed_of_restart hm₀ hc hmake ?_ (UInt16.le_iff_toNat_le.mp h64) ?_ hm
        · rw [hreads.memory]
          exact hkept.trans hbase
        · rw [hreads.memory]
          exact hrest
      exact ⟨hmachine ▸ hrenewed, hstreams ▸ rfl, hstreams ▸ rfl⟩

/-- A story in version 6, which starts with a routine of one local: it changes a byte of its own and
the flag for the transcript, puts a value on the stack, opens a table for text, and starts again. -/
def relapsing : Array UInt8 :=
  #[6, 0, 0, 0, 0, 0, 0, 0x18, 0, 0, 0, 0, 0, 0, 0, 0x50,
    0, 0, 0, 0, 0, 0, 0, 0, 0, 0, 0, 0, 0, 0, 0, 0,
    0, 0, 0, 0, 0, 0, 0, 0, 0, 0, 0, 0, 0, 0, 0, 0,
    0, 0, 0, 0, 0, 0, 0, 0, 0, 0, 0, 0, 0, 0, 0, 0,
    0, 0, 0, 0, 0, 0, 0, 0, 0, 0, 0, 0, 0, 0, 0, 0,
    0, 0, 0, 0, 0, 0, 0, 0, 0, 0, 0, 0, 0, 0, 0, 0,
    1, 0xe2, 0x57, 0x40, 0, 7, 0xe2, 0x57, 0x11, 0, 1, 0xe8, 0x7f, 5, 0xf3, 0x5f,
    3, 0x48, 0xb7]

/-- The instruction that starts it again. -/
def startingAgain : Instruction :=
  { opcode := ⟨.op0, 7⟩
    form := .short
    operands := []
    store := none
    branch := none
    textAddr := none
    size := 1 }

theorem relapsing_asLoaded :
    Reached relapsing ((started relapsing {}).following 4) ∧
      ((started relapsing {}).following 4).machine.memory.bytes[0x40]? = some 7 ∧
      ((started relapsing {}).following 4).machine.stack = [5] ∧
      ((started relapsing {}).following 4).streams.tables = [⟨0x48, 0⟩] ∧
      ((started relapsing {}).following 4).Executes startingAgain .restart ∧
      ∃ s₀, load relapsing ⟨[], []⟩ {} 0 = .ok s₀ ∧
        step ((started relapsing {}).following 4) = .ok .next ((started relapsing {}).following 5) ∧
        AsLoaded s₀ ((started relapsing {}).following 5) := by
  have hok : (load relapsing ⟨[], []⟩ {} 0 : Except Fault (Session Host.standard)).isOk = true := by
    decide +kernel
  have hr : Reached relapsing ((started relapsing {}).following 4) := reached_started hok 4
  have hs : step ((started relapsing {}).following 4) =
      .ok .next ((started relapsing {}).following 5) := step_following (by decide +kernel)
  -- What is to be computed at the moment of the restart is computed together.
  obtain ⟨⟨hbyte, hstack, htables⟩, ⟨hrunning, hdecode, hlookup⟩, hstatic, ⟨hsize, hsize₀⟩,
    hbytes⟩ :
      (((started relapsing {}).following 4).machine.memory.bytes[0x40]? = some 7 ∧
        ((started relapsing {}).following 4).machine.stack = [5] ∧
        ((started relapsing {}).following 4).streams.tables = [⟨0x48, 0⟩]) ∧
      (((started relapsing {}).following 4).state = .running ∧
        (Instruction.decode ((started relapsing {}).following 4).machine.memory
          ((started relapsing {}).following 4).machine.pc
          ((started relapsing {}).following 4).machine.version).toOption = some startingAgain ∧
        Operation.standard.lookup startingAgain.opcode
          ((started relapsing {}).following 4).machine.version = some .restart) ∧
      (Header.staticMemoryBase ((started relapsing {}).following 4).machine.memory).toOption =
        some 0x50 ∧
      (((started relapsing {}).following 4).machine.memory.bytes.size = 0x73 ∧
        (started relapsing {}).machine.memory.bytes.size = 0x73) ∧
      ∀ a < 0x73, 0x50 ≤ a →
        ((started relapsing {}).following 4).machine.memory.bytes[a]? =
          (started relapsing {}).machine.memory.bytes[a]? := by
    decide +kernel
  have he : ((started relapsing {}).following 4).Executes startingAgain .restart :=
    ⟨hrunning, eq_ok_of_toOption hdecode, hlookup⟩
  have hkept : Header.staticMemoryBase ((started relapsing {}).following 4).machine.memory =
      .ok 0x50 := eq_ok_of_toOption hstatic
  have hrest (a : Nat) (ha : 0x50 ≤ a) :
      ((started relapsing {}).following 4).machine.memory.bytes[a]? =
        (started relapsing {}).machine.memory.bytes[a]? := by
    by_cases hlt : a < 0x73
    · exact hbytes a hlt ha
    · rw [Array.getElem?_eq_none (by omega), Array.getElem?_eq_none (by omega)]
  refine ⟨hr, hbyte, hstack, htables, he, ?_⟩
  cases hl : (load relapsing ⟨[], []⟩ {} 0 : Except Fault (Session Host.standard)) with
  | error e =>
      rw [hl] at hok
      cases hok
  | ok s₀ =>
      have hmemory : (started relapsing {}).machine.memory = s₀.machine.memory := by
        unfold started
        rw [hl]
        rfl
      rw [hmemory] at hrest
      exact ⟨s₀, rfl, hs, restart_asLoaded hl hr rfl (by decide) hkept hrest he hs⟩

/-! ## 3. The player's flags -/

/-- What becomes of the player's flags, the two lowest bits of their word, in a step that succeeds
and turns back. A restart adds those that the story comes with, so none is lost, and all stay as
they are unless one of the story's was taken back. A return to a snapshot leaves them as they are,
up to the report to the instruction that took the snapshot. -/
structure PassesFlags (s : Session H) (i : Instruction) (op : Operation) (before : Word)
    (flow : Flow) (t : Session H) : Prop where
  restart : op = .restart → ∃ base after, Header.staticMemoryBase s.machine.memory = .ok base ∧
    Header.flags2 t.machine.memory = .ok after ∧
    after &&& 3 = (Machine.broughtBack s.story base ||| before) &&& 3 ∧
    (after &&& 3 = before &&& 3 ↔ Machine.broughtBack s.story base &&& 3 &&& ~~~before = 0)
  resume : ∀ args m snapshot, s.Reads i args m → s.snapshotFor op args = some snapshot →
    ∃ pc q after taker, Machine.restoreState snapshot s.story m = .ok pc q ∧
      Header.flags2 q.memory = .ok after ∧ after &&& 3 = before &&& 3 ∧
      Instruction.decode q.memory pc q.version = .ok taker ∧
      Machine.reportOutcome taker true Machine.restored { q with pc := pc + taker.size } =
        .ok flow t.machine

/-- What a step that returns to a snapshot does. -/
theorem resume_of_step {args : List Word} {m : Machine} {snapshot : Snapshot} (he : s.Executes i op)
    (hr : s.Reads i args m) (hs : s.snapshotFor op args = some snapshot) (h : step s = .ok flow t) :
    Machine.resume snapshot s.story m = .ok flow t.machine := by
  obtain ⟨j, op', args', m', u, he', hr', hp, sink, state, rfl⟩ := step_eq_ok h
  obtain ⟨rfl, rfl⟩ := he.unique he'
  cases hr.symm.trans hr'
  have hs' : (s.ready i m).snapshotFor op args = some snapshot := hs
  have hresume : Handler.resumeFrom snapshot (s.ready i m) = .ok flow u := by
    unfold snapshotFor at hs
    split at hs
    · exact (Handler.restore_of_snapshotFor hs').symm.trans hp
    · exact (Handler.restoreUndo_of_snapshotFor hs').symm.trans hp
    · cases hs
  unfold Handler.resumeFrom at hresume
  rw [get_bind] at hresume
  obtain ⟨q, hq, rfl⟩ := onMachine_eq_ok.mp hresume
  exact hq

/-- **The player's flags in a step that turns back.** -/
theorem step_passesFlags {before : Word} (he : s.Executes i op)
    (hflags : Header.flags2 s.machine.memory = .ok before) (h : step s = .ok flow t) :
    PassesFlags s i op before flow t where
  restart hop := by
    subst hop
    obtain ⟨args, m, m', hr, hm, rfl, -⟩ := restart_of_step he h
    obtain ⟨before', base, after, hbefore, hbase, hafter, hkept⟩ := Machine.flags_of_restart hm
    rw [hr.memory] at hbefore hbase
    cases hflags.symm.trans hbefore
    exact ⟨base, after, hbase, hafter, hkept, hkept ▸ Word.or_and_eq_iff ..⟩
  resume args m snapshot hr hs := by
    obtain ⟨pc, q, hq, hreport⟩ := bind_eq_ok.mp (resume_of_step he hr hs h)
    obtain ⟨before', after, hbefore, hafter, hkept⟩ := Machine.flags_of_restoreState hq
    rw [hr.memory] at hbefore
    cases hflags.symm.trans hbefore
    rw [get_bind] at hreport
    obtain ⟨taker, hd, hreport⟩ := lift_bind_eq_ok.mp hreport
    rw [set_bind] at hreport
    exact ⟨pc, q, after, taker, hq, hafter, hkept, hd, hreport⟩

/-- A story in version 5 that keeps a move, sets the flag for fixed pitch, and takes the move
back. -/
def marking : Array UInt8 :=
  #[5, 0, 0, 0, 0, 0, 0, 0x40, 0, 0, 0, 0, 0, 0, 0, 0x40,
    0, 0, 0, 0, 0, 0, 0, 0, 0, 0, 0, 0, 0, 0, 0, 0,
    0, 0, 0, 0, 0, 0, 0, 0, 0, 0, 0, 0, 0, 0, 0, 0,
    0, 0, 0, 0, 0, 0, 0, 0, 0, 0, 0, 0, 0, 0, 0, 0,
    0xbe, 9, 0xff, 0, 0xe2, 0x57, 0, 0x11, 2, 0xbe, 0x0a, 0xff, 0]

/-- The flag outlasts the return to the moment before it was set. -/
theorem marking_passesFlags :
    ((started marking {}).following 2).Executes takingBack .restoreUndo ∧
      Header.flags2 ((started marking {}).following 2).machine.memory = .ok 2 ∧
      ((started marking {}).following 2).undo.isSome = true ∧
      step ((started marking {}).following 2) = .ok .next ((started marking {}).following 3) ∧
      ((started marking {}).following 3).machine.stack = [2] ∧
      PassesFlags ((started marking {}).following 2) takingBack .restoreUndo 2 .next
        ((started marking {}).following 3) := by
  obtain ⟨⟨hrunning, hdecode, hlookup⟩, hword, hundo⟩ :
      (((started marking {}).following 2).state = .running ∧
        (Instruction.decode ((started marking {}).following 2).machine.memory
          ((started marking {}).following 2).machine.pc
          ((started marking {}).following 2).machine.version).toOption = some takingBack ∧
        Operation.standard.lookup takingBack.opcode
          ((started marking {}).following 2).machine.version = some .restoreUndo) ∧
      (Header.flags2 ((started marking {}).following 2).machine.memory).toOption = some 2 ∧
      ((started marking {}).following 2).undo.isSome = true := by
    decide +kernel
  have he : ((started marking {}).following 2).Executes takingBack .restoreUndo :=
    ⟨hrunning, eq_ok_of_toOption hdecode, hlookup⟩
  have hflags := eq_ok_of_toOption hword
  have hs : step ((started marking {}).following 2) =
      .ok .next ((started marking {}).following 3) := step_following (by decide +kernel)
  exact ⟨he, hflags, hundo, hs, by decide +kernel, step_passesFlags he hflags hs⟩

/-- A story in version 5 that comes with the flag for the transcript set, takes it back, and starts
again. -/
def clearing : Array UInt8 :=
  #[5, 0, 0, 0, 0, 0, 0, 0x40, 0, 0, 0, 0, 0, 0, 0, 0x40,
    0, 1, 0, 0, 0, 0, 0, 0, 0, 0, 0, 0, 0, 0, 0, 0,
    0, 0, 0, 0, 0, 0, 0, 0, 0, 0, 0, 0, 0, 0, 0, 0,
    0, 0, 0, 0, 0, 0, 0, 0, 0, 0, 0, 0, 0, 0, 0, 0,
    0xe2, 0x57, 0, 0x11, 0, 0xb7]

/-- The flag that was taken back is set again after the restart. -/
theorem clearing_flags :
    Reached clearing ((started clearing {}).following 1) ∧
      ((started clearing {}).following 1).Executes startingAgain .restart ∧
      Header.flags2 ((started clearing {}).following 1).machine.memory = .ok 0 ∧
      step ((started clearing {}).following 1) = .ok .next ((started clearing {}).following 2) ∧
      Header.flags2 ((started clearing {}).following 2).machine.memory = .ok 1 ∧
      (1 : Word) &&& 3 ≠ 0 &&& 3 := by
  have he : ((started clearing {}).following 1).Executes startingAgain .restart :=
    ⟨by decide +kernel, eq_ok_of_toOption (by decide +kernel), by decide +kernel⟩
  exact ⟨reached_started (by decide +kernel) 1, he, eq_ok_of_toOption (by decide +kernel),
    step_following (by decide +kernel), eq_ok_of_toOption (by decide +kernel), by decide⟩

end ZMachine.Session
