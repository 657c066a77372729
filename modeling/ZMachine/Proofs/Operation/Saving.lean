import ZMachine.Operation.Basic
import ZMachine.Operation.Saving
import ZMachine.Proofs.Session.Calm
import ZMachine.Proofs.Snapshot

/-!
# Saving, restoring and starting again

Saving changes nothing of the machine but the variable that is told about it. Restoring and starting
again put another state in its place; whether they get that far depends on the session alone, and if
they do not, they are instructions like any other.

* `Machine.keeps_resume`, `keeps_restart`  : the story version and the stack limit outlast both.
* `Session.TurnsBack`                      : the instruction puts an earlier state in place of the
  present one.
* `Handler.restore_cases`, `restoreUndo_cases` : the two ways back, with a snapshot to return to and
  without one.
* `Handler.fails_of_resumeFrom`            : a return that fails before it has put its snapshot back
  leaves the machine alone.
-/

namespace ZMachine

open ZMachine.Action

/-! ## 1. The machine -/

namespace Machine

theorem keeps_configureHeader : Keeps Steady configureHeader := by
  refine Keeps.bind keeps_get fun m => ?_
  have hlate : Keeps Steady (do
      if 5 ≤ m.version then
        writeWord 0x22 80
        writeWord 0x24 24
        writeByte 0x26 1
        writeByte 0x27 1
      writeWord 0x32 0x0101) := by
    refine Meets.ite ?_ (keeps_writeWord _ _)
    refine Keeps.bind (keeps_writeWord _ _) fun _ => ?_
    refine Keeps.bind (keeps_writeWord _ _) fun _ => ?_
    refine Keeps.bind (keeps_writeByte _ _) fun _ => ?_
    exact Keeps.bind (keeps_writeByte _ _) fun _ => keeps_writeWord _ _
  refine Meets.ite ?_ ?_
  · refine Keeps.bind (keeps_lift _) fun flags => ?_
    exact Keeps.bind (keeps_writeByte _ _) fun _ => hlate
  · refine Keeps.bind (keeps_writeByte _ _) fun _ => ?_
    refine Keeps.bind (keeps_writeByte _ _) fun _ => ?_
    refine Keeps.bind (keeps_writeByte _ _) fun _ => ?_
    exact Keeps.bind (keeps_writeByte _ _) fun _ => hlate

/-- A machine that starts again has empty stacks but for the frame that nothing called. -/
theorem reset_eq_ok {m m' : Machine} {u : Unit} (h : reset m = .ok u m') :
    ∃ pc locals, locals.length ≤ maxLocals ∧
      m' = { m with pc, stack := [], frames := [Frame.main locals] } := by
  unfold reset at h
  rw [modify_bind, get_bind] at h
  obtain ⟨initial, -, h⟩ := lift_bind_eq_ok.mp h
  split at h
  · cases h
    exact ⟨_, [], Nat.zero_le _, rfl⟩
  · obtain ⟨addr, -, h⟩ := lift_bind_eq_ok.mp h
    obtain ⟨count, hc, h⟩ := lift_bind_eq_ok.mp h
    obtain ⟨b, -, hle, rfl⟩ := localCount_eq_ok hc
    cases h
    exact ⟨_, _, by rw [List.length_replicate]; exact hle, rfl⟩

/-- A machine that cannot start again is left without any frame. -/
theorem reset_eq_error {m m' : Machine} {e : Fault} (h : reset m = .error e m') :
    m' = { m with stack := [], frames := [] } := by
  unfold reset at h
  rw [modify_bind, get_bind] at h
  rcases lift_bind_eq_error.mp h with ⟨-, rfl⟩ | ⟨initial, -, h⟩
  · rfl
  · split at h
    · cases h
    · rcases lift_bind_eq_error.mp h with ⟨-, rfl⟩ | ⟨addr, -, h⟩
      · rfl
      · rcases lift_bind_eq_error.mp h with ⟨-, rfl⟩ | ⟨count, -, h⟩
        · rfl
        · cases h

theorem keeps_reset : Keeps SameMake reset where
  ok h := by
    obtain ⟨pc, locals, -, rfl⟩ := reset_eq_ok h
    exact ⟨rfl, rfl⟩
  error h := by
    rw [reset_eq_error h]
    exact ⟨rfl, rfl⟩

theorem keeps_restart (story : Array UInt8) : Keeps SameMake (restart story) := by
  refine Keeps.bind keeps_get fun m => ?_
  refine Keeps.bind (keeps_lift _) fun kept => ?_
  refine Keeps.bind (keeps_lift _) fun base => ?_
  have hrest : Keeps SameMake (do
      let flags ← Header.flags2 (← get).memory
      writeWord Header.flags2Addr (flags ||| (kept &&& keptFlags))
      reset
      configureHeader) := by
    refine Keeps.bind keeps_get fun m' => ?_
    refine Keeps.bind (keeps_lift _) fun flags => ?_
    refine Keeps.bind ((keeps_writeWord _ _).mono Spends.sameMake) fun _ => ?_
    exact Keeps.bind keeps_reset fun _ => keeps_configureHeader.mono Spends.sameMake
  refine Meets.ite ?_ ?_
  · exact Keeps.bind ((keeps_writeSlice _ _).mono Spends.sameMake) fun _ => hrest
  · exact Keeps.bind (keeps_throw _) fun _ => hrest

theorem keeps_apply (snapshot : Snapshot) (story : Array UInt8) :
    Keeps SameMake (snapshot.apply story) where
  ok h := by
    obtain ⟨size, part, bytes, -, -, -, -, -, rfl⟩ := Snapshot.apply_eq_ok.mp h
    exact ⟨rfl, rfl⟩
  error h := by
    rw [Snapshot.apply_eq_error h]
    exact ⟨rfl, rfl⟩

theorem steers_reportOutcome {i : Instruction} (success : Bool) (result : Word) :
    Steers i none (fun _ => 0) (reportOutcome i success result) := by
  refine Steers.bind keeps_get fun m => ?_
  have hbranch : Steers i none (fun _ => 0) (branch i.branch success) := steers_branch success
  have hdeliver : Steers i none (fun _ => 0) (deliver i result) := steers_deliver i result
  exact Meets.ite hbranch hdeliver

theorem keeps_restoreState (snapshot : Snapshot) (story : Array UInt8) :
    Keeps SameMake (restoreState snapshot story) := by
  refine Keeps.bind keeps_get fun m => ?_
  refine Keeps.bind (keeps_lift _) fun flags => ?_
  refine Keeps.bind (keeps_apply snapshot story) fun pc => ?_
  refine Keeps.bind keeps_get fun m' => ?_
  refine Keeps.bind (keeps_lift _) fun restoredFlags => ?_
  refine Keeps.bind ((keeps_writeWord _ _).mono Spends.sameMake) fun _ => ?_
  exact Keeps.bind (keeps_configureHeader.mono Spends.sameMake) fun _ => keeps_pure _

theorem keeps_resume (snapshot : Snapshot) (story : Array UInt8) :
    Keeps SameMake (resume snapshot story) := by
  refine Keeps.bind (keeps_restoreState snapshot story) fun pc => ?_
  constructor
  · intro m flow m' h
    rw [get_bind] at h
    obtain ⟨taker, -, h⟩ := lift_bind_eq_ok.mp h
    rw [set_bind] at h
    have hm := ((steers_reportOutcome true restored).ok h).sameMake
    exact ⟨hm.version, hm.stackLimit⟩
  · intro m e m' h
    rw [get_bind] at h
    rcases lift_bind_eq_error.mp h with ⟨-, rfl⟩ | ⟨taker, -, h⟩
    · exact ⟨rfl, rfl⟩
    · rw [set_bind] at h
      have hm := ((steers_reportOutcome true restored).error h).sameMake
      exact ⟨hm.version, hm.stackLimit⟩

/-- A return to a snapshot that gets as far as putting it back. -/
def PutsBack (snapshot : Snapshot) (story : Array UInt8) (m : Machine) : Prop :=
  ∃ flags pc q, Header.flags2 m.memory = .ok flags ∧ snapshot.apply story m = .ok pc q

theorem resume_eq_ok {snapshot : Snapshot} {story : Array UInt8} {m m' : Machine} {flow : Flow}
    (h : resume snapshot story m = .ok flow m') : PutsBack snapshot story m := by
  obtain ⟨pc, q, h, -⟩ := bind_eq_ok.mp h
  unfold restoreState at h
  rw [get_bind] at h
  obtain ⟨flags, hflags, h⟩ := lift_bind_eq_ok.mp h
  obtain ⟨pc', q', happly, -⟩ := bind_eq_ok.mp h
  exact ⟨flags, pc', q', hflags, happly⟩

theorem flow_of_resume {snapshot : Snapshot} {story : Array UInt8} {m m' : Machine} {flow : Flow}
    (h : resume snapshot story m = .ok flow m') : flow ≠ .called := by
  obtain ⟨pc, q, -, h⟩ := bind_eq_ok.mp h
  rw [get_bind] at h
  obtain ⟨taker, -, h⟩ := lift_bind_eq_ok.mp h
  rw [set_bind] at h
  exact ((steers_reportOutcome true restored).ok h).ne_called

/-- A return to a snapshot that does not get as far as putting it back changes nothing. -/
theorem resume_eq_error {snapshot : Snapshot} {story : Array UInt8} {m m' : Machine} {e : Fault}
    (h : resume snapshot story m = .error e m') : PutsBack snapshot story m ∨ m' = m := by
  rcases bind_eq_error.mp h with h | ⟨pc, q, h, -⟩
  · unfold restoreState at h
    rw [get_bind] at h
    rcases lift_bind_eq_error.mp h with ⟨-, rfl⟩ | ⟨flags, hflags, h⟩
    · exact .inr rfl
    · rcases bind_eq_error.mp h with h | ⟨pc', q', happly, -⟩
      · exact .inr (Snapshot.apply_eq_error h)
      · exact .inl ⟨flags, pc', q', hflags, happly⟩
  · unfold restoreState at h
    rw [get_bind] at h
    obtain ⟨flags, hflags, h⟩ := lift_bind_eq_ok.mp h
    obtain ⟨pc', q', happly, -⟩ := bind_eq_ok.mp h
    exact .inl ⟨flags, pc', q', hflags, happly⟩

end Machine

/-! ## 2. The session -/

/-- The saved game that would be restored. -/
def SaveStore.held? : SaveStore → Option Snapshot
  | slot held => held
  | declining => none
  | failing => none

namespace Session

variable {H : Host} {α : Type}

/-- The snapshot that an instruction returns to. -/
def snapshotFor (s : Session H) (op : Operation) (args : List Word) : Option Snapshot :=
  match op with
  | .restore => if args.isEmpty then s.saves.bind SaveStore.held? else none
  | .restoreUndo => s.undo
  | _ => none

/-- The instruction puts an earlier state in place of the present one: it starts the story again, or
it returns to a snapshot and gets as far as putting that back. -/
inductive TurnsBack (s : Session H) (op : Operation) (args : List Word) : Prop where
  | restarts (h : op = .restart)
  | returns (snapshot : Snapshot) (hs : s.snapshotFor op args = some snapshot)
      (hp : Machine.PutsBack snapshot s.story s.machine)

/-- What an operation leaves alone: saving replaces the saved game, and keeping a move replaces the
one that was kept. -/
structure Spared (op : Operation) (s t : Session H) : Prop extends Kept s t where
  saves : op ≠ .save → t.saves = s.saves
  undo : op ≠ .saveUndo → t.undo = s.undo
  machine : Machine.SameMake s.machine t.machine

instance {op : Operation} : IsPreorder (Session H) (Spared op) where
  refl _ := ⟨⟨rfl, rfl, rfl, rfl, rfl, rfl, rfl, rfl⟩, fun _ => rfl, fun _ => rfl, ⟨rfl, rfl⟩⟩
  trans _ _ _ h h' :=
    ⟨h.toKept.trans h'.toKept, fun hn => (h'.saves hn).trans (h.saves hn),
      fun hn => (h'.undo hn).trans (h.undo hn), h.machine.trans h'.machine⟩

theorem Spared.of_held {op : Operation} {s t : Session H} (h : Held s t)
    (hm : Machine.SameMake s.machine t.machine) : Spared op s t :=
  ⟨h.toKept, fun _ => h.saves, fun _ => h.undo, hm⟩

theorem Steers.spares {i : Instruction} {leap : Option Word} {reach : UInt8 → Nat} {op : Operation}
    {x : Exec H Flow} (h : Steers i leap reach x) : Keeps (Spared op) x where
  ok hx := .of_held (h.ok hx).1 (h.ok hx).2.sameMake
  error hx := .of_held (h.error hx).1 (h.error hx).2.sameMake

theorem spares_onMachine {op : Operation} {x : Action Machine α}
    (h : Keeps Machine.SameMake x) : Keeps (Spared op) (onMachine x : Exec H α) where
  ok {s a t} hx := by
    obtain ⟨m, hm, rfl⟩ := onMachine_eq_ok.mp hx
    exact .of_held (held_machine s m) (h.ok hm)
  error {s e t} hx := by
    obtain ⟨m, hm, rfl⟩ := onMachine_eq_error.mp hx
    exact .of_held (held_machine s m) (h.error hm)

/-- The machine has made a steady change, whatever has happened around it. -/
def SteadyMachine (s t : Session H) : Prop :=
  Machine.Steady s.machine t.machine

instance : IsPreorder (Session H) SteadyMachine where
  refl _ := .refl _
  trans _ _ _ h h' := h.trans h'

/-- Every result of the computation is one that `Goes` or `Fails` describes, whatever happens around
the machine, and leaves alone every value on the stack. -/
abbrev Moves (i : Instruction) (x : Exec H Flow) : Prop :=
  Meets x (fun s flow t => Machine.Goes H.KeepsSize i none 0 s.machine flow t.machine)
    (fun s t => Machine.Fails H.KeepsSize s.machine t.machine)

theorem Steers.moves {i : Instruction} {x : Exec H Flow} (h : Steers i none (fun _ => 0) x) : Moves i x :=
  ⟨fun hx => (h.ok hx).2, fun hx => (h.error hx).2⟩

theorem Moves.bind {i : Instruction} {x : Exec H α} {f : α → Exec H Flow}
    (hx : Keeps SteadyMachine x) (hf : ∀ a, Moves i (f a)) : Moves i (x >>= f) :=
  Meets.bind hx hf .after_steady (fun h h' => h'.after_calm (.of_quiet h.toCalm))
    (fun h => .of_calm (.of_quiet h.toCalm))

end Session

/-! ## 3. The instructions -/

namespace Handler

open Session

variable {H : Host} {i : Instruction} {args : List Word}

theorem steers_report (success : Bool) :
    Steers i none (fun _ => 0) (report i success : Exec H Flow) :=
  steers_onMachine (Machine.steers_reportOutcome success _)

theorem steers_answer (value : Word) :
    Steers i none (fun _ => 0) (onMachine (Machine.deliver i value) : Exec H Flow) :=
  steers_onMachine (Machine.steers_deliver i value)

theorem keeps_takeSnapshot {R : Session H → Session H → Prop} [IsPreorder (Session H) R] :
    Keeps R (takeSnapshot : Exec H Snapshot) :=
  Keeps.bind keeps_get fun _ => keeps_lift _

theorem spares_save : Keeps (Spared .save) (save i args : Exec H Flow) := by
  refine Meets.ite ?_ (steers_report false).spares
  refine Keeps.bind keeps_takeSnapshot fun snapshot => ?_
  refine Keeps.bind keeps_get fun s => ?_
  cases s.saves with
  | none => exact (steers_report false).spares
  | some store =>
      refine Keeps.bind (keeps_lift _) fun (saved, store) => ?_
      refine Keeps.bind (keeps_modify fun s => ?_) fun _ => (steers_report saved).spares
      exact ⟨⟨rfl, rfl, rfl, rfl, rfl, rfl, rfl, rfl⟩, fun h => absurd rfl h, fun _ => rfl, ⟨rfl, rfl⟩⟩

theorem moves_save : Moves i (save i args : Exec H Flow) := by
  refine Meets.ite ?_ (steers_report false).moves
  refine Moves.bind keeps_takeSnapshot fun snapshot => ?_
  refine Moves.bind keeps_get fun s => ?_
  cases s.saves with
  | none => exact (steers_report false).moves
  | some store =>
      refine Moves.bind (keeps_lift _) fun (saved, store) => ?_
      exact Moves.bind (keeps_modify fun s => Machine.Spends.refl s.machine) fun _ =>
        (steers_report saved).moves

theorem spares_saveUndo (i : Instruction) (args : List Word) :
    Keeps (Spared .saveUndo) (saveUndo i args : Exec H Flow) := by
  refine Keeps.bind keeps_takeSnapshot fun snapshot => ?_
  refine Keeps.bind (keeps_modify fun s => ?_) fun _ => (steers_answer 1).spares
  exact ⟨⟨rfl, rfl, rfl, rfl, rfl, rfl, rfl, rfl⟩, fun _ => rfl, fun h => absurd rfl h, ⟨rfl, rfl⟩⟩

theorem moves_saveUndo (i : Instruction) (args : List Word) :
    Moves i (saveUndo i args : Exec H Flow) := by
  refine Moves.bind keeps_takeSnapshot fun snapshot => ?_
  exact Moves.bind (keeps_modify fun s => Machine.Spends.refl s.machine) fun _ =>
    (steers_answer 1).moves

theorem spares_resumeFrom {op : Operation} (snapshot : Snapshot) :
    Keeps (Spared op) (resumeFrom snapshot : Exec H Flow) :=
  Keeps.bind keeps_get fun s => spares_onMachine (Machine.keeps_resume snapshot s.story)

theorem spares_restore {op : Operation} : Keeps (Spared op) (restore i args : Exec H Flow) := by
  refine Meets.ite ?_ (steers_report false).spares
  refine Keeps.bind keeps_get fun s => ?_
  cases s.saves with
  | none => exact (steers_report false).spares
  | some store =>
      refine Keeps.bind (keeps_lift _) fun held => ?_
      cases held with
      | none => exact (steers_report false).spares
      | some snapshot => exact spares_resumeFrom snapshot

theorem spares_restoreUndo {op : Operation} (i : Instruction) (args : List Word) :
    Keeps (Spared op) (restoreUndo i args : Exec H Flow) := by
  refine Keeps.bind keeps_get fun s => ?_
  cases s.undo with
  | none => exact (steers_answer 0).spares
  | some snapshot => exact spares_resumeFrom snapshot

theorem spares_restart {op : Operation} (i : Instruction) (args : List Word) :
    Keeps (Spared op) (restart i args : Exec H Flow) := by
  refine Keeps.bind keeps_get fun s => ?_
  refine Keeps.bind (spares_onMachine (Machine.keeps_restart s.story)) fun _ => ?_
  exact Keeps.bind (keeps_modify fun s => .of_held (quiet_around ..).held ⟨rfl, rfl⟩) fun _ =>
    keeps_pure _

/-- A return to a snapshot does not succeed without putting the snapshot back, and if it fails
before that it leaves the machine as it is. -/
theorem fails_of_resumeFrom {snapshot : Snapshot} {s t : Session H} {e : Fault}
    (hn : ¬ Machine.PutsBack snapshot s.story s.machine)
    (h : resumeFrom snapshot s = .error e t) : t.machine = s.machine := by
  unfold resumeFrom at h
  rw [get_bind] at h
  obtain ⟨m, hm, rfl⟩ := onMachine_eq_error.mp h
  exact (Machine.resume_eq_error hm).resolve_left hn

theorem putsBack_of_resumeFrom {snapshot : Snapshot} {s t : Session H} {flow : Flow}
    (h : resumeFrom snapshot s = .ok flow t) : Machine.PutsBack snapshot s.story s.machine := by
  unfold resumeFrom at h
  rw [get_bind] at h
  obtain ⟨m, hm, -⟩ := onMachine_eq_ok.mp h
  exact Machine.resume_eq_ok hm

theorem flow_of_resumeFrom {snapshot : Snapshot} {s t : Session H} {flow : Flow}
    (h : resumeFrom snapshot s = .ok flow t) : flow ≠ .called := by
  unfold resumeFrom at h
  rw [get_bind] at h
  obtain ⟨m, hm, -⟩ := onMachine_eq_ok.mp h
  exact Machine.flow_of_resume hm

theorem flow_of_restart {s t : Session H} {flow : Flow} (h : restart i args s = .ok flow t) :
    flow = .next := by
  unfold restart at h
  rw [get_bind] at h
  obtain ⟨u, q, -, h⟩ := bind_eq_ok.mp h
  rw [modify_bind] at h
  cases h
  rfl

/-- A restore with a saved game to return to is the return to it. -/
theorem restore_of_snapshotFor {snapshot : Snapshot} {s : Session H}
    (h : s.snapshotFor .restore args = some snapshot) :
    restore i args s = resumeFrom snapshot s := by
  unfold snapshotFor at h
  cases args with
  | cons a rest => cases h
  | nil =>
      unfold restore
      rw [if_pos List.isEmpty_nil, get_bind]
      have h' : s.saves.bind SaveStore.held? = some snapshot := h
      obtain ⟨store, hstore, hheld⟩ := Option.bind_eq_some_iff.mp h'
      rw [hstore]
      cases store with
      | slot held =>
          cases hheld
          rfl
      | declining => cases hheld
      | failing => cases hheld

/-- A restore without a saved game reports that it failed, or the store of saved games fails. -/
theorem restore_of_snapshotFor_none {s : Session H} (h : s.snapshotFor .restore args = none) :
    restore i args s = report i false s ∨ ∃ e, restore i args s = .error e s := by
  unfold snapshotFor at h
  cases args with
  | cons a rest => exact .inl rfl
  | nil =>
      unfold restore
      rw [if_pos List.isEmpty_nil, get_bind]
      cases hs : s.saves with
      | none => exact .inl rfl
      | some store =>
          cases store with
          | slot held =>
              rw [hs] at h
              cases held with
              | none => exact .inl rfl
              | some snapshot => cases h
          | declining => exact .inl rfl
          | failing => exact .inr ⟨_, rfl⟩

theorem restore_cases (i : Instruction) (args : List Word) (s : Session H) :
    (∃ snapshot, s.snapshotFor .restore args = some snapshot ∧
      restore i args s = resumeFrom snapshot s) ∨
    restore i args s = report i false s ∨ ∃ e, restore i args s = .error e s := by
  cases h : s.snapshotFor .restore args with
  | none => exact .inr (restore_of_snapshotFor_none h)
  | some snapshot => exact .inl ⟨snapshot, rfl, restore_of_snapshotFor h⟩

theorem restoreUndo_of_snapshotFor {snapshot : Snapshot} {s : Session H}
    (h : s.snapshotFor .restoreUndo args = some snapshot) :
    restoreUndo i args s = resumeFrom snapshot s := by
  have h' : s.undo = some snapshot := h
  unfold restoreUndo
  rw [get_bind, h']

theorem restoreUndo_cases (i : Instruction) (args : List Word) (s : Session H) :
    (∃ snapshot, s.snapshotFor .restoreUndo args = some snapshot ∧
      restoreUndo i args s = resumeFrom snapshot s) ∨
    restoreUndo i args s = onMachine (Machine.deliver i 0) s := by
  cases h : s.snapshotFor .restoreUndo args with
  | some snapshot => exact .inl ⟨snapshot, rfl, restoreUndo_of_snapshotFor h⟩
  | none =>
      have h' : s.undo = none := h
      unfold restoreUndo
      rw [get_bind, h']
      exact .inr rfl

end Handler

end ZMachine
