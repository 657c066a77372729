import ZMachine.Proofs.Operation.Saving
import ZMachine.Proofs.StoryVersion

/-!
# Bounds that every machine keeps

Memory has one size for good, the value stack never outgrows its limit, no frame has more locals
than a routine can declare, and the frame that nothing called wants no result. Whatever an
instruction does to the machine keeps this, and so do the two ways back to an earlier state,
provided the snapshot was within the same bounds.

* `Machine.FramesFit`       : the bounds of the call frames.
* `Machine.Fits`            : all bounds of a machine, which may have run out of frames.
* `Machine.Live`            : the same with a routine running.
* `Snapshot.Fits`           : the bounds of a snapshot.
* `Machine.Goes.live`, `Machine.Fails.fits` : what an instruction makes of them.
* `Machine.ensures_restart`, `ensures_resume` : what the ways back make of them.
* `Machine.load_eq_ok`      : a machine is within its bounds from the start.
-/

namespace ZMachine

open ZMachine.Action

namespace Machine

/-! ## 1. Frames -/

/-- No frame has more locals than a routine can declare, and the lowest one wants no result. -/
structure FramesFit (frames : List Frame) : Prop where
  locals : ∀ f ∈ frames, f.locals.length ≤ maxLocals
  main : ∀ f, frames.getLast? = some f → f.returnStore = none

theorem framesFit_nil : FramesFit [] :=
  ⟨nofun, nofun⟩

theorem FramesFit.of_suffix {frames frames' : List Frame} (h : FramesFit frames)
    (hs : frames' <:+ frames) : FramesFit frames' where
  locals f hf := h.locals f (hs.mem hf)
  main f hf := by
    obtain ⟨dropped, rfl⟩ := hs
    refine h.main f ?_
    rw [List.getLast?_append, hf]
    rfl

/-- The values of locals do not matter. -/
theorem FramesFit.of_shapes {frames frames' : List Frame} (h : FramesFit frames)
    (hs : frames'.map Frame.shape = frames.map Frame.shape) : FramesFit frames' where
  locals f hf := by
    have hm : f.shape ∈ frames.map Frame.shape := hs ▸ List.mem_map_of_mem hf
    obtain ⟨g, hg, hshape⟩ := List.mem_map.mp hm
    have hl : g.locals.length = f.locals.length := congrArg (·.2.2.1) hshape
    exact hl ▸ h.locals g hg
  main f hf := by
    have hl : (frames.map Frame.shape).getLast? = some f.shape := by
      rw [← hs, List.getLast?_map, hf]
      rfl
    rw [List.getLast?_map] at hl
    obtain ⟨g, hg, hshape⟩ := Option.map_eq_some_iff.mp hl
    have hstore : g.returnStore = f.returnStore := congrArg (·.2.1) hshape
    exact hstore ▸ h.main g hg

/-- A routine that was called may want a result. -/
theorem FramesFit.cons {f : Frame} {frames : List Frame} (h : FramesFit frames)
    (hne : 0 < frames.length) (hf : f.locals.length ≤ maxLocals) : FramesFit (f :: frames) where
  locals g hg := by
    rcases List.mem_cons.mp hg with rfl | hg
    · exact hf
    · exact h.locals g hg
  main g hg := by
    refine h.main g ?_
    cases frames with
    | nil => exact absurd hne (Nat.lt_irrefl 0)
    | cons a rest => rwa [List.getLast?_cons_cons] at hg

theorem framesFit_main {locals : List Word} (h : locals.length ≤ maxLocals) :
    FramesFit [Frame.main locals] where
  locals f hf := by
    rw [List.mem_singleton.mp hf]
    exact h
  main f hf := by
    cases hf
    rfl

/-! ## 2. Machines -/

/-- Memory has the given size, the stack keeps the given limit, and the frames fit. -/
structure Fits (size limit : Nat) (m : Machine) : Prop where
  size : m.memory.size = size
  stackLimit : m.stackLimit = limit
  stack : m.stack.length ≤ limit
  frames : FramesFit m.frames

/-- A machine within its bounds on which a routine is running. -/
structure Live (size limit : Nat) (m : Machine) : Prop extends Fits size limit m where
  running : 0 < m.depth

section Bounds

variable {sized : Prop} {size limit : Nat} {m m' : Machine}

theorem Calm.fits (h : Calm sized m m') (hs : sized) (hm : Fits size limit m) :
    Fits size limit m' where
  size := (h.size hs).trans hm.size
  stackLimit := h.stackLimit.trans hm.stackLimit
  stack := by
    have h₁ := h.stack
    have h₂ := hm.stack
    rw [hm.stackLimit] at h₁
    omega
  frames := hm.frames.of_shapes h.shapes

theorem Calm.live (h : Calm sized m m') (hs : sized) (hm : Live size limit m) :
    Live size limit m' :=
  ⟨h.fits hs hm.toFits, h.depth ▸ hm.running⟩

theorem Jumped.live {offset : Int} (h : Jumped offset m m') (hm : Live size limit m) :
    Live size limit m' := by
  obtain ⟨pc, -, -, rfl⟩ := h
  exact ⟨⟨hm.size, hm.stackLimit, hm.stack, hm.frames⟩, hm.running⟩

/-- Dropping values and frames keeps the bounds. -/
theorem Fits.drop {pc : Nat} {stack : List Word} {frames : List Frame} (hm : Fits size limit m)
    (hs : stack <:+ m.stack) (hf : frames <:+ m.frames) :
    Fits size limit { m with pc, stack, frames } :=
  ⟨hm.size, hm.stackLimit, Nat.le_trans hs.length_le hm.stack, hm.frames.of_suffix hf⟩

theorem Left.live {value : Word} (h : Left value m m') (hm : Fits size limit m) :
    Live size limit m' := by
  cases h with
  | mk frame caller rest hf hs =>
      have hq := (keeps_storeResult frame.returnStore value).ok hs
      refine hq.live trivial ⟨?_, Nat.succ_pos _⟩
      exact hm.drop (bottom_suffix _ _) ((List.suffix_cons _ _).trans hf)

@[simp] theorem length_withArguments (locals args : List Word) :
    (withArguments locals args).length = locals.length := by
  fun_induction withArguments locals args with
  | case1 _ locals arg args ih => rw [List.length_cons, List.length_cons, ih]
  | case2 => rfl

theorem Entered.live {packed : Word} {args : List Word} {store : Option UInt8}
    (h : Entered packed args store m m') (hm : Live size limit m) : Live size limit m' := by
  cases h with
  | mk addr locals pc _ hs =>
      refine ⟨⟨hm.size, hm.stackLimit, hm.stack, ?_⟩, Nat.succ_pos _⟩
      refine hm.frames.cons hm.running ?_
      obtain ⟨count, -, hle, hlocals, -⟩ := routineStart_eq_ok hs
      rw [length_withArguments, hlocals]
      exact hle

/-- **An instruction that succeeds keeps the bounds and leaves a routine running.** -/
theorem Goes.live {i : Instruction} {leap : Option Word} {reach : Nat} {flow : Flow}
    (h : Goes sized i leap reach m flow m') (hs : sized) (hm : Live size limit m) :
    Live size limit m' := by
  cases h with
  | next hc => exact hc.live hs hm
  | quit hc => exact hc.live hs hm
  | branched b hq _ _ _ hj => exact hj.live (hq.live trivial hm)
  | jumped a hq _ hj => exact hj.live (hq.live trivial hm)
  | returned hq hl => exact hl.live (hq.fits trivial hm.toFits)

/-- **An instruction that fails keeps the bounds**, though it may leave no routine running. -/
theorem Fails.fits (h : Fails sized m m') (hs : sized) (hm : Fits size limit m) :
    Fits size limit m' := by
  cases h with
  | mk q pc stack frames hc hst hfr => exact (hc.fits hs hm).drop hst hfr

end Bounds

end Machine

/-! ## 3. Snapshots -/

/-- The stack of a snapshot keeps the given limit, and its frames fit and are not none. -/
structure Snapshot.Fits (limit : Nat) (snapshot : Snapshot) : Prop where
  stack : snapshot.stack.length ≤ limit
  running : 0 < snapshot.frames.length
  frames : Machine.FramesFit snapshot.frames

/-- The snapshot of a running machine is within the machine's bounds. -/
theorem Snapshot.fits_of_capture {m : Machine} {story : Array UInt8} {pc size limit : Nat}
    {snapshot : Snapshot} (h : capture m story pc = .ok snapshot) (hm : m.Live size limit) :
    snapshot.Fits limit := by
  obtain ⟨n, current, part, stored, -, -, -, -, rfl⟩ := capture_eq_ok.mp h
  exact ⟨hm.stack, hm.running, hm.frames⟩

/-! ## 4. Ways back -/

namespace Machine

variable {size limit : Nat}

theorem ensures_reset : Ensures (Fits size limit) reset (fun _ => Live size limit)
    (Fits size limit) where
  ok h hm := by
    obtain ⟨pc, locals, hle, rfl⟩ := reset_eq_ok h
    exact ⟨⟨hm.size, hm.stackLimit, Nat.zero_le _, framesFit_main hle⟩, Nat.one_pos⟩
  error h hm := by
    rw [reset_eq_error h]
    exact ⟨hm.size, hm.stackLimit, Nat.zero_le _, framesFit_nil⟩

theorem ensures_of_steady {α : Type} {x : Action Machine α} (hx : Keeps Steady x) :
    Ensures (Fits size limit) x (fun _ => Fits size limit) (Fits size limit) :=
  hx.ensures (fun h => h.fits trivial) id

theorem ensures_live_of_steady {α : Type} {x : Action Machine α} (hx : Keeps Steady x) :
    Ensures (Live size limit) x (fun _ => Live size limit) (Fits size limit) :=
  hx.ensures (fun h => h.live trivial) Live.toFits

theorem ensures_of_steers {i : Instruction} {leap : Option Word} {reach : UInt8 → Nat}
    {x : Action Machine Flow} (hx : Steers i leap reach x) :
    Ensures (Live size limit) x (fun _ => Live size limit) (Fits size limit) :=
  ⟨fun h hm => (hx.ok h).live trivial hm, fun h hm => (hx.error h).fits trivial hm.toFits⟩

theorem ensures_restart (story : Array UInt8) :
    Ensures (Fits size limit) (restart story) (fun _ => Live size limit) (Fits size limit) := by
  refine Ensures.bind (ensures_of_steady keeps_get) fun m => ?_
  refine Ensures.bind (ensures_of_steady (keeps_lift _)) fun kept => ?_
  refine Ensures.bind (ensures_of_steady (keeps_lift _)) fun base => ?_
  have hrest : Ensures (Fits size limit) (do
      let flags ← Header.flags2 (← get).memory
      writeWord Header.flags2Addr (flags ||| (kept &&& keptFlags))
      reset
      configureHeader) (fun _ => Live size limit) (Fits size limit) := by
    refine Ensures.bind (ensures_of_steady keeps_get) fun m' => ?_
    refine Ensures.bind (ensures_of_steady (keeps_lift _)) fun flags => ?_
    refine Ensures.bind (ensures_of_steady (keeps_writeWord _ _)) fun _ => ?_
    exact Ensures.bind ensures_reset fun _ => ensures_live_of_steady keeps_configureHeader
  refine Meets.ite ?_ ?_
  · exact Ensures.bind (ensures_of_steady (keeps_writeSlice _ _)) fun _ => hrest
  · exact Ensures.bind (ensures_of_steady (keeps_throw _)) fun _ => hrest

variable {snapshot : Snapshot}

theorem ensures_apply (hs : snapshot.Fits limit) (story : Array UInt8) :
    Ensures (Fits size limit) (snapshot.apply story) (fun _ => Live size limit)
      (Fits size limit) where
  ok h hm := by
    obtain ⟨n, part, bytes, -, -, -, -, -, rfl⟩ := Snapshot.apply_eq_ok.mp h
    refine ⟨⟨?_, hm.stackLimit, hs.stack, hs.frames⟩, hs.running⟩
    exact (Memory.size_overwrite ..).trans hm.size
  error h hm := by
    rw [Snapshot.apply_eq_error h]
    exact hm

theorem ensures_restoreState (hs : snapshot.Fits limit) (story : Array UInt8) :
    Ensures (Fits size limit) (restoreState snapshot story) (fun _ => Live size limit)
      (Fits size limit) := by
  refine Ensures.bind (ensures_of_steady keeps_get) fun m => ?_
  refine Ensures.bind (ensures_of_steady (keeps_lift _)) fun flags => ?_
  refine Ensures.bind (ensures_apply hs story) fun pc => ?_
  refine Ensures.bind (ensures_live_of_steady keeps_get) fun m' => ?_
  refine Ensures.bind (ensures_live_of_steady (keeps_lift _)) fun restoredFlags => ?_
  refine Ensures.bind (ensures_live_of_steady (keeps_writeWord _ _)) fun _ => ?_
  refine Ensures.bind (ensures_live_of_steady keeps_configureHeader) fun _ => ?_
  exact ensures_live_of_steady (keeps_pure _)

theorem ensures_resume (hs : snapshot.Fits limit) (story : Array UInt8) :
    Ensures (Fits size limit) (resume snapshot story) (fun _ => Live size limit)
      (Fits size limit) := by
  refine Ensures.bind (ensures_restoreState hs story) fun pc => ?_
  have hreport (taker : Instruction) :
      Ensures (Live size limit) (reportOutcome taker true restored) (fun _ => Live size limit)
        (Fits size limit) :=
    ensures_of_steers (steers_reportOutcome true restored)
  constructor
  · intro m flow m' h hm
    rw [get_bind] at h
    obtain ⟨taker, -, h⟩ := lift_bind_eq_ok.mp h
    rw [set_bind] at h
    exact (hreport taker).ok h ⟨⟨hm.size, hm.stackLimit, hm.stack, hm.frames⟩, hm.running⟩
  · intro m e m' h hm
    rw [get_bind] at h
    rcases lift_bind_eq_error.mp h with ⟨-, rfl⟩ | ⟨taker, -, h⟩
    · exact hm.toFits
    · rw [set_bind] at h
      exact (hreport taker).error h ⟨⟨hm.size, hm.stackLimit, hm.stack, hm.frames⟩, hm.running⟩

end Machine

/-! ## 5. Loading -/

/-- **A story image that can be loaded** holds a header and is of a known version, and its machine
is within bounds, with nothing on its stack. -/
theorem Machine.load_eq_ok {image : Array UInt8} {m : Machine} (h : load image = .ok m) :
    Header.size ≤ image.size ∧ image[0]? = some m.version ∧ (1 ≤ m.version ∧ m.version ≤ 8) ∧
      m.Live image.size defaultStackLimit ∧ m.stack = [] := by
  unfold load at h
  split at h
  · cases h
  · rename_i hsize
    obtain ⟨version, hv, h⟩ := except_bind_eq_ok.mp h
    obtain ⟨n, hn, h⟩ := except_bind_eq_ok.mp h
    dsimp only at h
    split at h
    · rename_i m' hr
      cases h
      have hlive := ensures_reset.ok hr ⟨rfl, rfl, Nat.zero_le _, framesFit_nil⟩
      obtain ⟨pc, locals, -, rfl⟩ := reset_eq_ok hr
      obtain ⟨hfrom, hto, -⟩ := PackedAddress.unit_eq_ok hn
      exact ⟨Nat.le_of_not_lt hsize, Memory.readByte_eq_ok.mp hv, ⟨hfrom, hto⟩, hlive, rfl⟩
    · cases h

end ZMachine
