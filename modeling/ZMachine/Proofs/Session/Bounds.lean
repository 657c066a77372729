import ZMachine.Proofs.Machine.Bounds
import ZMachine.Proofs.Machine.Resuming
import ZMachine.Proofs.Session.Bracketing

/-!
# Bounds that every run keeps

From the moment a story is loaded, however far it runs and whatever it does: memory keeps the size
of the story, the value stack its limit, every frame its number of locals; the story and its version
stay what they were; a routine is running unless the run has failed. Restores put a snapshot in
place of stack and frames, so what is saved has to be within the same bounds at any time.

* `Session.Fits`, `Live`      : machine and snapshots within bounds, and a routine running.
* `Operation.ensures_perform` : what an operation makes of them.
* `Session.Fresh`             : a loaded story before its first step.
* `Session.Reached`           : the sessions that a loaded story comes to.
* `Session.sound_of_reached`  : all bounds hold in each of them.
-/

namespace ZMachine

open ZMachine.Action

/-! ## 1. Sessions within bounds -/

namespace Session

variable {H : Host} {α : Type} {size limit : Nat} {s t : Session H}

/-- The machine is within its bounds, and so is everything that was saved of it. -/
structure Fits (size limit : Nat) (s : Session H) : Prop where
  machine : s.machine.Fits size limit
  undo : ∀ snapshot, s.undo = some snapshot → snapshot.Fits limit
  saved : ∀ snapshot, s.saves.bind SaveStore.held? = some snapshot → snapshot.Fits limit

/-- A session within its bounds on whose machine a routine is running. -/
structure Live (size limit : Nat) (s : Session H) : Prop extends Fits size limit s where
  running : 0 < s.machine.depth

theorem Live.live (h : Live size limit s) : s.machine.Live size limit :=
  ⟨h.machine, h.running⟩

theorem Fits.of_held (hs : Fits size limit s) (h : Held s t) (hm : t.machine.Fits size limit) :
    Fits size limit t where
  machine := hm
  undo snapshot hu := hs.undo snapshot (h.undo ▸ hu)
  saved snapshot hv := hs.saved snapshot (h.saves ▸ hv)

theorem Live.of_held (hs : Live size limit s) (h : Held s t) (hm : t.machine.Live size limit) :
    Live size limit t :=
  ⟨hs.toFits.of_held h hm.toFits, hm.running⟩

/-- Whatever an instruction returns to is within bounds. -/
theorem Fits.of_snapshotFor {op : Operation} {args : List Word} {snapshot : Snapshot}
    (hs : Fits size limit s) (h : s.snapshotFor op args = some snapshot) : snapshot.Fits limit := by
  unfold snapshotFor at h
  split at h
  · split at h
    · exact hs.saved snapshot h
    · cases h
  · exact hs.undo snapshot h
  · cases h

theorem ensures_of_steers {i : Instruction} {leap : Option Word} {reach : UInt8 → Nat}
    {x : Exec H Flow} (hH : H.KeepsSize) (hx : Steers i leap reach x) :
    Ensures (Live size limit) x (fun _ => Live size limit) (Fits size limit) where
  ok h hs := hs.of_held (hx.ok h).1 ((hx.ok h).2.live hH hs.live)
  error h hs := hs.toFits.of_held (hx.error h).1 ((hx.error h).2.fits hH hs.machine)

theorem ensures_onMachine {x : Action Machine α}
    (hx : Ensures (Machine.Live size limit) x (fun _ => Machine.Live size limit)
      (Machine.Fits size limit)) :
    Ensures (Live size limit) (onMachine x : Exec H α) (fun _ => Live size limit)
      (Fits size limit) where
  ok {s a t} h hs := by
    obtain ⟨m, hm, rfl⟩ := onMachine_eq_ok.mp h
    exact hs.of_held (held_machine s m) (hx.ok hm hs.live)
  error {s e t} h hs := by
    obtain ⟨m, hm, rfl⟩ := onMachine_eq_error.mp h
    exact hs.toFits.of_held (held_machine s m) (hx.error hm hs.live)

end Session

/-! ## 2. Operations -/

namespace Handler

open Session

variable {H : Host} {size limit : Nat} {i : Instruction} {args : List Word}

/-- The snapshot of a running machine is within the machine's bounds. -/
theorem ensures_takeSnapshot :
    Ensures (Live size limit) (takeSnapshot : Exec H Snapshot)
      (fun snapshot s => Live size limit s ∧ snapshot.Fits limit) (Fits size limit) where
  ok {s snapshot t} h hs := by
    unfold takeSnapshot at h
    rw [get_bind] at h
    obtain ⟨hc, rfl⟩ := lift_eq_ok.mp h
    exact ⟨hs, Snapshot.fits_of_capture hc hs.live⟩
  error {s e t} h hs := by
    have heq : s = t := (keeps_takeSnapshot (R := Eq)).error h
    exact heq ▸ hs.toFits

/-- A store holds the game it was last given, if it takes games at all. -/
theorem held?_of_save {store : SaveStore} {p : Bool × SaveStore} {snapshot held : Snapshot}
    (h : store.save snapshot = .ok p) (hh : p.2.held? = some held) : snapshot = held := by
  cases store with
  | slot _ =>
      cases h
      cases hh
      rfl
  | declining =>
      cases h
      cases hh
  | failing => cases h

theorem ensures_save (hH : H.KeepsSize) :
    Ensures (Live size limit) (save i args : Exec H Flow) (fun _ => Live size limit)
      (Fits size limit) := by
  have hreport (success : Bool) :
      Ensures (Live size limit) (report i success : Exec H Flow) (fun _ => Live size limit)
        (Fits size limit) :=
    ensures_of_steers hH (steers_report success)
  refine Meets.ite ?_ (hreport false)
  refine Ensures.bind ensures_takeSnapshot fun snapshot => ?_
  refine Ensures.bind ((keeps_get (R := Eq)).ensures (fun h hP => h ▸ hP) fun hP => hP.1.toFits)
    fun s => ?_
  cases s.saves with
  | none => exact Ensures.of_imp And.left (hreport false)
  | some store =>
      refine Ensures.bind (Q := fun p s => Live size limit s ∧
        ∀ held, p.2.held? = some held → held.Fits limit) ?_ fun (saved, store') => ?_
      · constructor
        · intro s p t h hP
          obtain ⟨hsave, rfl⟩ := lift_eq_ok.mp h
          exact ⟨hP.1, fun held hh => held?_of_save hsave hh ▸ hP.2⟩
        · intro s e t h hP
          obtain ⟨-, rfl⟩ := lift_eq_error.mp h
          exact hP.1.toFits
      · refine Ensures.bind (Q := fun _ => Live size limit) ?_ fun _ => hreport saved
        constructor
        · intro s u t h hP
          cases h
          exact ⟨⟨hP.1.machine, hP.1.undo, hP.2⟩, hP.1.running⟩
        · intro s e t h
          cases h

theorem ensures_saveUndo (hH : H.KeepsSize) (i : Instruction) (args : List Word) :
    Ensures (Live size limit) (saveUndo i args : Exec H Flow) (fun _ => Live size limit)
      (Fits size limit) := by
  refine Ensures.bind ensures_takeSnapshot fun snapshot => ?_
  refine Ensures.bind (Q := fun _ => Live size limit) ?_ fun _ =>
    ensures_of_steers hH (steers_answer 1)
  constructor
  · intro s u t h hs
    obtain ⟨hs, hsnap⟩ := hs
    cases h
    refine ⟨⟨hs.machine, fun kept hk => ?_, hs.saved⟩, hs.running⟩
    cases hk
    exact hsnap
  · intro s e t h
    cases h

theorem ensures_resumeFrom {snapshot : Snapshot} (hs : snapshot.Fits limit) :
    Ensures (Live size limit) (resumeFrom snapshot : Exec H Flow) (fun _ => Live size limit)
      (Fits size limit) := by
  refine Ensures.of_eq fun s _ => ⟨onMachine (Machine.resume snapshot s.story), rfl, ?_⟩
  exact ensures_onMachine (Ensures.of_imp Machine.Live.toFits (Machine.ensures_resume hs s.story))

theorem ensures_restore (hH : H.KeepsSize) :
    Ensures (Live size limit) (restore i args : Exec H Flow) (fun _ => Live size limit)
      (Fits size limit) := by
  refine Ensures.of_eq fun s hs => ?_
  rcases restore_cases i args s with ⟨snapshot, hsnap, hr⟩ | hr | ⟨e, hr⟩
  · exact ⟨_, hr, ensures_resumeFrom (hs.of_snapshotFor hsnap)⟩
  · exact ⟨_, hr, ensures_of_steers hH (steers_report false)⟩
  · refine ⟨throw e, hr, ?_⟩
    exact (keeps_throw (R := Eq) e).ensures (fun h hP => h ▸ hP) Live.toFits

theorem ensures_restoreUndo (hH : H.KeepsSize) (i : Instruction) (args : List Word) :
    Ensures (Live size limit) (restoreUndo i args : Exec H Flow) (fun _ => Live size limit)
      (Fits size limit) := by
  refine Ensures.of_eq fun s hs => ?_
  rcases restoreUndo_cases i args s with ⟨snapshot, hsnap, hr⟩ | hr
  · exact ⟨_, hr, ensures_resumeFrom (hs.of_snapshotFor hsnap)⟩
  · exact ⟨_, hr, ensures_of_steers hH (steers_answer 0)⟩

theorem ensures_restart (i : Instruction) (args : List Word) :
    Ensures (Live size limit) (restart i args : Exec H Flow) (fun _ => Live size limit)
      (Fits size limit) := by
  refine Ensures.of_eq fun s _ => ⟨(do
    onMachine (Machine.restart s.story)
    modify fun s => { s with streams := {} }
    return .next), rfl, ?_⟩
  refine Ensures.bind (ensures_onMachine
    (Ensures.of_imp Machine.Live.toFits (Machine.ensures_restart s.story))) fun _ => ?_
  constructor
  · intro s flow t h hs
    cases h
    exact hs.of_held (quiet_around ..).held hs.live
  · intro s e t h
    cases h

end Handler

open Session Handler in
/-- **An operation keeps the bounds.** If it succeeds it also leaves a routine running. -/
theorem Operation.ensures_perform {H : Host} {size limit : Nat} (hH : H.KeepsSize)
    (op : Operation) (i : Instruction) (args : List Word) :
    Ensures (Live size limit) (op.perform i args : Exec H Flow) (fun _ => Live size limit)
      (Fits size limit) := by
  by_cases hp : op.isPlain = true
  · exact ensures_of_steers hH (steers_perform hp i args)
  · rcases special_of_not_isPlain hp with rfl | rfl | rfl | rfl | rfl | rfl
    · refine ensures_onMachine ⟨fun h hm => ?_, fun h hm => ?_⟩
      · rcases meets_callRoutine.ok h with hg | ⟨-, packed, rest, -, he⟩
        · exact hg.live trivial hm
        · exact he.live hm
      · exact (meets_callRoutine.error h).fits trivial hm.toFits
    · exact ensures_save hH
    · exact ensures_restore hH
    · exact ensures_restart i args
    · exact ensures_saveUndo hH i args
    · exact ensures_restoreUndo hH i args

/-! ## 3. Steps -/

namespace Session

variable {H : Host} {s t : Session H} {image : Array UInt8} {i : Instruction} {op : Operation}

/-- What holds of every session that a story image comes to: it has the story and the version of the
image, it is within the bounds of that story and of its settings, and a routine is running unless
the run has failed. -/
structure Sound (image : Array UInt8) (s : Session H) : Prop
    extends Fits image.size s.settings.stackLimit s where
  story : s.story = image
  header : Header.size ≤ image.size
  version : image[0]? = some s.machine.version
  known : 1 ≤ s.machine.version ∧ s.machine.version ≤ 8
  running : s.state ≠ .failed → 0 < s.machine.depth

theorem Sound.live (h : Sound image s) (hs : s.state = .running) :
    Live image.size s.settings.stackLimit s :=
  ⟨h.toFits, h.running (by rw [hs]; decide)⟩

theorem Sound.failed (h : Sound image s) : Sound image { s with state := .failed } :=
  { h with running := absurd rfl }

/-- Taking up an instruction and reading its operands. -/
theorem Sound.ready (h : Sound image s) {m : Machine} (hm : Machine.Popped (s.advance i).machine m) :
    Sound image (s.ready i m) := by
  obtain ⟨n, rfl⟩ := hm
  have hfits : Machine.Fits image.size s.settings.stackLimit (s.advance i).machine :=
    ⟨h.machine.size, h.machine.stackLimit, h.machine.stack, h.machine.frames⟩
  exact
    { story := h.story
      header := h.header
      version := h.version
      known := h.known
      running := h.running
      machine := hfits.drop (List.drop_suffix _ _) (List.suffix_refl _)
      undo := h.undo
      saved := h.saved }

/-- Carrying an operation out. -/
theorem Sound.of_spared (h : Sound image s) (hs : Spared op s t)
    (ht : Fits image.size s.settings.stackLimit t) (sink : Sink) {state : RunState}
    (hr : state ≠ .failed → 0 < t.machine.depth) : Sound image { t with sink, state } :=
  { story := hs.story.trans h.story
    header := h.header
    version := hs.machine.version ▸ h.version
    known := hs.machine.version ▸ h.known
    running := hr
    machine := hs.settings ▸ ht.machine
    undo := hs.settings ▸ ht.undo
    saved := hs.settings ▸ ht.saved }

theorem Sound.of_perform_ok (hH : H.KeepsSize) {args : List Word} {flow : Flow} (h : Sound image s)
    (hs : s.state = .running) (hp : op.perform i args s = .ok flow t) (sink : Sink)
    (state : RunState) : Sound image { t with sink, state } := by
  have ht := (Operation.ensures_perform hH op i args).ok hp (h.live hs)
  have hspared := (Operation.spares_perform op i args).ok hp
  exact h.of_spared hspared ht.toFits sink fun _ => ht.running

theorem Sound.of_perform_error (hH : H.KeepsSize) {args : List Word} {e : Fault}
    (h : Sound image s) (hs : s.state = .running) (hp : op.perform i args s = .error e t) :
    Sound image { t with state := .failed } := by
  have ht := (Operation.ensures_perform hH op i args).error hp (h.live hs)
  have hspared := (Operation.spares_perform op i args).error hp
  exact h.of_spared hspared ht t.sink (absurd rfl)

/-- **A step, whether it succeeds or fails, keeps all of it.** -/
theorem Sound.next (hH : H.KeepsSize) (h : Sound image s) (hn : Next s t) : Sound image t := by
  rcases hn with ⟨flow, hn⟩ | ⟨e, hn⟩
  · obtain ⟨i, op, args, m, u, he, hr, hp, sink, state, rfl⟩ := step_eq_ok hn
    exact (h.ready hr.popped).of_perform_ok hH he.running hp sink state
  · cases step_eq_error hn with
    | finished _ => exact h
    | undecoded _ _ => exact h.failed
    | unknown i _ => exact (h.ready (.refl (s.advance i).machine)).failed
    | unread i m _ hm => exact (h.ready hm).failed
    | failed i op args m u he hr hp => exact (h.ready hr.popped).of_perform_error hH he.running hp
    | unflushed i op args m u sink he hr hp =>
        exact (h.ready hr.popped).of_perform_ok hH he.running hp sink .quit

/-! ## 4. Runs -/

/-- A loaded story that has not taken a step: its settings may have been chosen and helpers
attached, and the store for saved games holds none. -/
inductive Fresh (image : Array UInt8) : Session H → Prop where
  | loaded {s : Session H} (input : Input) (sink : Sink) (entropy : UInt64)
      (h : load image input sink entropy = .ok s) : Fresh image s
  | withSettings {s : Session H} (settings : Settings) (h : Fresh image s) :
      Fresh image (s.withSettings settings)
  | equipped {s : Session H} (decoder : TextDecoder) (objects : Option H.Objects)
      (lexer : Option H.Lexer) (screen : Screen) (saves : Option SaveStore)
      (hs : saves.bind SaveStore.held? = none) (h : Fresh image s) :
      Fresh image { s with decoder, objects, lexer, screen, saves }

/-- The sessions that a story image comes to, by steps that may fail. -/
inductive Reached (image : Array UInt8) : Session H → Prop where
  | fresh {s : Session H} (h : Fresh image s) : Reached image s
  | next {s t : Session H} (h : Reached image s) (hn : Next s t) : Reached image t

/-- What a session has before its first step: nothing on the stack and nothing saved. -/
structure Unused (s : Session H) : Prop where
  stack : s.machine.stack = []
  undo : s.undo = none
  saved : s.saves.bind SaveStore.held? = none

theorem sound_of_load {input : Input} {sink : Sink} {entropy : UInt64}
    (h : load image input sink entropy = .ok s) : Sound image s ∧ Unused s := by
  obtain ⟨m, hm, h⟩ := except_bind_eq_ok.mp h
  obtain ⟨hsize, hversion, hknown, hlive, hstack⟩ := Machine.load_eq_ok hm
  have hc := Machine.configureHeader_eq (hlive.size.symm ▸ hsize)
  have hlive' := (Machine.keeps_configureHeader.ok hc).live trivial hlive
  rw [hc] at h
  cases h
  refine ⟨?_, hstack, rfl, rfl⟩
  exact
    { story := rfl
      header := hsize
      version := hversion
      known := hknown
      running := fun _ => hlive'.running
      machine := hlive'.toFits
      undo := nofun
      saved := nofun }

/-- A story is within its bounds before its first step, whatever limit its settings give the
stack. -/
theorem sound_of_fresh (h : Fresh image s) : Sound image s ∧ Unused s := by
  induction h with
  | loaded input sink entropy h => exact sound_of_load h
  | @withSettings s settings h ih =>
      obtain ⟨hs, hu⟩ := ih
      refine ⟨?_, hu.stack, hu.undo, hu.saved⟩
      have hstack : s.machine.stack.length ≤ settings.stackLimit := by
        rw [hu.stack]
        exact Nat.zero_le _
      exact
        { hs with
          machine := ⟨hs.machine.size, rfl, hstack, hs.machine.frames⟩
          undo := fun snapshot h' => absurd (hu.undo.symm.trans h') nofun
          saved := fun snapshot h' => absurd (hu.saved.symm.trans h') nofun }
  | equipped decoder objects lexer screen saves hv h ih =>
      obtain ⟨hs, hu⟩ := ih
      refine ⟨?_, hu.stack, hu.undo, hv⟩
      exact { hs with saved := fun snapshot h' => absurd (hv.symm.trans h') nofun }

/-- **Every session that a story comes to is within its bounds.** -/
theorem sound_of_reached (hH : H.KeepsSize) (h : Reached image s) : Sound image s := by
  induction h with
  | fresh h => exact (sound_of_fresh h).1
  | next _ hn ih => exact ih.next hH hn

/-- The session of a story image with the given settings and nothing around it. -/
def started (image : Array UInt8) (settings : Settings) : Session Host.standard :=
  match load image ⟨[], []⟩ {} 0 with
  | .ok s => s.withSettings settings
  | .error _ => bare default

theorem reached_started {settings : Settings}
    (h : (load image ⟨[], []⟩ {} 0 : Except Fault (Session Host.standard)).isOk = true) (n : Nat) :
    Reached image ((started image settings).following n) := by
  induction n with
  | zero =>
      refine .fresh ?_
      unfold following started
      cases hl : load image ⟨[], []⟩ {} 0 with
      | ok s => exact .withSettings settings (.loaded _ _ _ hl)
      | error e => rw [hl] at h; cases h
  | succ n ih => exact .next ih (next_following _ n)

/-- A story in version 5 that keeps a move, and takes it back in a routine that it calls. -/
def rewinding : Array UInt8 :=
  #[5, 0, 0, 0, 0, 0, 0, 0x40, 0, 0, 0, 0, 0, 0, 0, 0x40,
    0, 0, 0, 0, 0, 0, 0, 0, 0, 0, 0, 0, 0, 0, 0, 0,
    0, 0, 0, 0, 0, 0, 0, 0, 0, 0, 0, 0, 0, 0, 0, 0,
    0, 0, 0, 0, 0, 0, 0, 0, 0, 0, 0, 0, 0, 0, 0, 0,
    0xbe, 0x09, 0xff, 0, 0x8f, 0, 0x12, 0xba, 2, 0xbe, 0x0a, 0xff, 0]

/-- With room for one value on the stack, the moment after the move was taken back. -/
theorem rewinding_sound :
    Host.standard.KeepsSize ∧
      Reached rewinding ((started rewinding { stackLimit := 1 }).following 3) ∧
      ((started rewinding { stackLimit := 1 }).following 2).machine.depth = 2 ∧
      ((started rewinding { stackLimit := 1 }).following 3).machine.stack = [2] ∧
      ((started rewinding { stackLimit := 1 }).following 3).undo.isSome = true ∧
      Sound rewinding ((started rewinding { stackLimit := 1 }).following 3) := by
  have hr : Reached rewinding ((started rewinding { stackLimit := 1 }).following 3) :=
    reached_started (by decide +kernel) 3
  exact ⟨Host.standard_keepsSize, hr, by decide +kernel, by decide +kernel, by decide +kernel,
    sound_of_reached Host.standard_keepsSize hr⟩

end Session

end ZMachine
