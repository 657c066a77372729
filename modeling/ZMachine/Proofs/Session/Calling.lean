import ZMachine.Proofs.Machine.Bounds
import ZMachine.Proofs.Session.Bracketing

/-!
# What a call builds

A call builds one frame, with everything in it, or changes nothing. How many arguments were given
and how many locals there are do not depend on each other: arguments beyond the locals are lost but
counted, and locals beyond the arguments start with the values that the routine declares, or with 0.
What the frame says about its arguments lasts as long as the frame does.

* `Machine.InitialLocal`        : what a local holds before the arguments are put in.
* `Frame.BuiltFor`              : the frame of a call, local by local.
* `Machine.CallsInto`           : the machine after the call.
* `Machine.called_iff`          : a call that enters its routine does exactly this.
* `Machine.Shifts`              : frames were put on top or dropped from there.
* `Session.shapes_of_inside`    : the frame of a call outlasts every run inside the call.
* `Session.BranchesOn`          : the next step is a branch on the condition.
* `Session.call_exact`          : what a call builds, and how its routine counts its arguments.
-/

namespace ZMachine

open ZMachine.Action

/-! ## 1. Locals -/

namespace Machine

variable {memory : Memory} {version : UInt8} {addr pc count : Nat} {words locals args : List Word}

/-- What a local of the routine at an address holds before the arguments are put in. Up to version 4
the values stand in a row behind the number of locals, later they are 0. -/
def InitialLocal (memory : Memory) (version : UInt8) (addr i : Nat) (w : Word) : Prop :=
  if version ≤ 4 then memory.readWord (addr + 1 + 2 * i) = .ok w else w = 0

/-- Words in a row can be read exactly if each of them can. -/
theorem readWords_eq_ok :
    readWords memory addr count = .ok words ↔
      words.length = count ∧ ∀ i < count, ∃ w, memory.readWord (addr + 2 * i) = .ok w ∧
        words[i]? = some w := by
  induction count generalizing addr words with
  | zero =>
      constructor
      · intro h
        cases h
        exact ⟨rfl, nofun⟩
      · intro h
        rw [List.eq_nil_of_length_eq_zero h.1]
        rfl
  | succ count ih =>
      constructor
      · intro h
        obtain ⟨w, hw, h⟩ := except_bind_eq_ok.mp h
        obtain ⟨rest, hrest, h⟩ := except_bind_eq_ok.mp h
        cases h
        obtain ⟨hlength, hwords⟩ := ih.mp hrest
        refine ⟨congrArg (· + 1) hlength, fun i hi => ?_⟩
        cases i with
        | zero => exact ⟨w, hw, rfl⟩
        | succ i =>
            obtain ⟨v, hv, hget⟩ := hwords i (Nat.lt_of_succ_lt_succ hi)
            rw [show addr + 2 * (i + 1) = addr + 2 + 2 * i by omega]
            exact ⟨v, hv, hget⟩
      · intro h
        obtain ⟨hlength, hwords⟩ := h
        cases words with
        | nil => cases hlength
        | cons w rest =>
            obtain ⟨v, hv, hget⟩ := hwords 0 (Nat.succ_pos count)
            cases hget
            have hrest : readWords memory (addr + 2) count = .ok rest := by
              refine ih.mpr ⟨Nat.succ.inj hlength, fun i hi => ?_⟩
              have hi' := hwords (i + 1) (Nat.succ_lt_succ hi)
              rwa [show addr + 2 * (i + 1) = addr + 2 + 2 * i by omega] at hi'
            exact except_bind_eq_ok.mpr ⟨_, hv, except_bind_eq_ok.mpr ⟨_, hrest, rfl⟩⟩

/-- A row of zeros, one by one. -/
theorem eq_replicate_zero_iff :
    List.replicate count 0 = words ↔
      words.length = count ∧ ∀ i < count, ∃ w : Word, w = 0 ∧ words[i]? = some w := by
  constructor
  · rintro rfl
    refine ⟨List.length_replicate, fun i hi => ⟨0, rfl, ?_⟩⟩
    rw [List.getElem?_replicate, if_pos hi]
  · intro h
    obtain ⟨rfl, hwords⟩ := h
    refine (List.eq_replicate_iff.mpr ⟨rfl, fun w hw => ?_⟩).symm
    obtain ⟨i, hi, rfl⟩ := List.getElem_of_mem hw
    obtain ⟨v, rfl, hget⟩ := hwords i hi
    exact Option.some.inj ((List.getElem?_eq_getElem hi).symm.trans hget)

theorem localCount_of_readByte {b : UInt8} (h : memory.readByte addr = .ok b)
    (hle : b.toNat ≤ maxLocals) : localCount memory addr = .ok b.toNat := by
  refine except_bind_eq_ok.mpr ⟨b, h, ?_⟩
  rw [if_neg (Nat.not_lt.mpr hle)]

/-- **A routine's locals before the arguments are put in**, one by one, and where its code
starts. -/
theorem routineStart_eq_ok_iff :
    routineStart memory version addr = .ok (locals, pc) ↔
      ∃ b, memory.readByte addr = .ok b ∧ b.toNat ≤ maxLocals ∧
        (locals.length = b.toNat ∧
          ∀ i < b.toNat, ∃ w, InitialLocal memory version addr i w ∧ locals[i]? = some w) ∧
        pc = if version ≤ 4 then addr + 1 + 2 * b.toNat else addr + 1 := by
  unfold routineStart InitialLocal
  by_cases hv : version ≤ 4
  · simp only [if_pos hv, ← readWords_eq_ok]
    constructor
    · intro h
      obtain ⟨n, hn, h⟩ := except_bind_eq_ok.mp h
      obtain ⟨b, hb, hle, rfl⟩ := localCount_eq_ok hn
      obtain ⟨words, hwords, h⟩ := except_bind_eq_ok.mp h
      cases h
      exact ⟨b, hb, hle, hwords, rfl⟩
    · intro h
      obtain ⟨b, hb, hle, hwords, rfl⟩ := h
      refine except_bind_eq_ok.mpr ⟨_, localCount_of_readByte hb hle, ?_⟩
      exact except_bind_eq_ok.mpr ⟨locals, hwords, rfl⟩
  · simp only [if_neg hv, ← eq_replicate_zero_iff]
    constructor
    · intro h
      obtain ⟨n, hn, h⟩ := except_bind_eq_ok.mp h
      obtain ⟨b, hb, hle, rfl⟩ := localCount_eq_ok hn
      cases h
      exact ⟨b, hb, hle, rfl, rfl⟩
    · intro h
      obtain ⟨b, hb, hle, rfl, rfl⟩ := h
      exact except_bind_eq_ok.mpr ⟨_, localCount_of_readByte hb hle, rfl⟩

/-- An argument takes the place of the local with its number, as long as there is one. -/
theorem getElem?_withArguments (locals args : List Word) (i : Nat) :
    (withArguments locals args)[i]? = locals[i]?.map (args.getD i) := by
  induction locals generalizing args i with
  | nil => rfl
  | cons w locals ih =>
    cases args with
    | nil => cases h : (w :: locals)[i]? <;> simp [withArguments, h]
    | cons arg args =>
      cases i with
      | zero => rfl
      | succ i => exact ih args i

theorem InitialLocal.unique {i : Nat} {w w' : Word} (h : InitialLocal memory version addr i w)
    (h' : InitialLocal memory version addr i w') : w = w' := by
  unfold InitialLocal at h h'
  split at h
  · rename_i hv
    rw [if_pos hv] at h'
    exact Except.ok.inj (h.symm.trans h')
  · rename_i hv
    rw [if_neg hv] at h'
    exact h.trans h'.symm

/-- If each local has a value to start with, there is a row of them all. -/
theorem exists_initialLocals (h : ∀ i < count, ∃ w, InitialLocal memory version addr i w) :
    ∃ locals : List Word, locals.length = count ∧
      ∀ i < count, ∃ w, InitialLocal memory version addr i w ∧ locals[i]? = some w := by
  refine ⟨List.ofFn fun i : Fin count => (h i i.isLt).choose, List.length_ofFn, fun i hi => ?_⟩
  refine ⟨_, (h i hi).choose_spec, ?_⟩
  rw [List.getElem?_ofFn, dif_pos hi]

end Machine

/-! ## 2. Frames -/

/-- The frame that a call from the machine `m` builds for the routine at `addr` with `count` locals.
It says where the caller goes on, which variable wants the result, how many arguments were given,
all of them counted, and how many values are on the stack. A local is the argument with its number,
if that was given, and else what it starts with. -/
structure Frame.BuiltFor (m : Machine) (addr count : Nat) (args : List Word) (store : Option UInt8)
    (f : Frame) : Prop where
  returnPc : f.returnPc = m.pc
  returnStore : f.returnStore = store
  argCount : f.argCount = args.length
  stackBase : f.stackBase = m.stack.length
  length : f.locals.length = count
  locals : ∀ i < count, ∃ w, Machine.InitialLocal m.memory m.version addr i w ∧
    f.locals[i]? = some (args.getD i w)

namespace Machine

variable {packed : Word} {args : List Word} {store : Option UInt8} {m m' : Machine}

/-- The machine after a call: one frame more, and the program counter behind the routine's header,
which holds a word for each local up to version 4. Nothing else has changed. -/
def CallsInto (packed : Word) (args : List Word) (store : Option UInt8) (m m' : Machine) : Prop :=
  ∃ addr b f, PackedAddress.routine m.memory packed = .ok addr ∧ m.memory.readByte addr = .ok b ∧
    b.toNat ≤ 15 ∧ f.BuiltFor m addr b.toNat args store ∧
    m' = { m with
           pc := if m.version ≤ 4 then addr + 1 + 2 * b.toNat else addr + 1
           frames := f :: m.frames }

/-- Putting the arguments in place of the first locals gives each local its value. -/
theorem locals_eq_withArguments_iff {memory : Memory} {version : UInt8} {addr count : Nat}
    {initial locals : List Word} (hlength : initial.length = count)
    (hinitial : ∀ i < count, ∃ w, InitialLocal memory version addr i w ∧ initial[i]? = some w) :
    locals = withArguments initial args ↔
      locals.length = count ∧
        ∀ i < count, ∃ w, InitialLocal memory version addr i w ∧
          locals[i]? = some (args.getD i w) := by
  constructor
  · rintro rfl
    refine ⟨(length_withArguments initial args).trans hlength, fun i hi => ?_⟩
    obtain ⟨w, hw, hget⟩ := hinitial i hi
    refine ⟨w, hw, ?_⟩
    rw [getElem?_withArguments, hget]
    rfl
  · intro h
    obtain ⟨hlen, hlocals⟩ := h
    refine List.ext_getElem? fun i => ?_
    rw [getElem?_withArguments]
    by_cases hi : i < count
    · obtain ⟨w, hw, hget⟩ := hinitial i hi
      obtain ⟨w', hw', hget'⟩ := hlocals i hi
      rw [hget, hget', hw'.unique hw]
      rfl
    · rw [List.getElem?_eq_none (by omega), List.getElem?_eq_none (by omega)]
      rfl

/-- **To enter a routine is to build its frame.** -/
theorem entered_iff : Entered packed args store m m' ↔ CallsInto packed args store m m' := by
  constructor
  · intro h
    cases h with
    | mk addr initial pc ha hs =>
        obtain ⟨b, hb, hle, ⟨hlength, hinitial⟩, rfl⟩ := routineStart_eq_ok_iff.mp hs
        obtain ⟨hlen, hlocals⟩ := (locals_eq_withArguments_iff hlength hinitial).mp rfl
        exact ⟨addr, b, _, ha, hb, hle, ⟨rfl, rfl, rfl, rfl, hlen, hlocals⟩, rfl⟩
  · intro h
    obtain ⟨addr, b, f, ha, hb, hle, hf, rfl⟩ := h
    obtain ⟨initial, hlength, hinitial⟩ := exists_initialLocals fun i hi =>
      (hf.locals i hi).imp fun w hw => hw.1
    have hs := routineStart_eq_ok_iff.mpr ⟨b, hb, hle, ⟨hlength, hinitial⟩, rfl⟩
    have hlocals := (locals_eq_withArguments_iff hlength hinitial).mpr ⟨hf.length, hf.locals⟩
    have hframe : f =
        { returnPc := m.pc
          returnStore := store
          locals := withArguments initial args
          argCount := args.length
          stackBase := m.stack.length } := by
      cases f
      simp only [Frame.mk.injEq]
      exact ⟨hf.returnPc, hf.returnStore, hlocals, hf.argCount, hf.stackBase⟩
    rw [hframe]
    exact .mk addr initial _ ha hs

theorem called_iff :
    call packed args store m = .ok .called m' ↔ packed ≠ 0 ∧ CallsInto packed args store m m' := by
  rw [← entered_iff]
  unfold call
  by_cases h₀ : packed = 0
  · rw [if_pos h₀]
    constructor
    · intro h
      obtain ⟨u, q, -, h⟩ := bind_eq_ok.mp h
      cases h
    · intro h
      exact absurd h₀ h.1
  · rw [if_neg h₀, get_bind, lift_bind_eq_ok]
    constructor
    · intro h
      obtain ⟨addr, ha, h⟩ := h
      obtain ⟨⟨locals, pc⟩, hs, h⟩ := lift_bind_eq_ok.mp h
      cases h
      exact ⟨h₀, .mk addr locals pc ha hs⟩
    · intro h
      cases h.2 with
      | mk addr locals pc ha hs => exact ⟨addr, ha, lift_bind_eq_ok.mpr ⟨_, hs, rfl⟩⟩

/-- **A call that fails changes nothing**, neither where it has a result to store nor where the
routine's header runs out of memory. -/
theorem call_eq_error {e : Fault} (h : call packed args store m = .error e m') : m' = m := by
  unfold call at h
  by_cases h₀ : packed = 0
  · rw [if_pos h₀] at h
    rcases bind_eq_error.mp h with h | ⟨u, q, -, h⟩
    · exact storeResult_eq_error h
    · cases h
  · rw [if_neg h₀, get_bind] at h
    rcases lift_bind_eq_error.mp h with ⟨-, rfl⟩ | ⟨addr, -, h⟩
    · rfl
    · rcases lift_bind_eq_error.mp h with ⟨-, rfl⟩ | ⟨start, -, h⟩
      · rfl
      · cases h

end Machine

/-! ## 3. Counting arguments -/

open Machine in
/-- Whether a routine was given so many arguments is asked of the running frame. -/
theorem Handler.checkArgCount_of_cons {j : Instruction} {n : Word} {rest : List Word} {q : Machine}
    {f : Frame} {fs : List Frame} (hf : q.frames = f :: fs) :
    checkArgCount j (n :: rest) q = branch j.branch (decide (n.toNat ≤ f.argCount)) q := by
  have hcurrent : currentFrame q = .ok f q := by
    unfold currentFrame
    rw [get_bind, hf]
    rfl
  show (currentFrame >>= fun frame => branch j.branch (decide (n.toNat ≤ frame.argCount))) q = _
  rw [bind_of_ok hcurrent]

theorem Machine.ne_quit_of_branch {b : Option Branch} {condition : Bool} {flow : Flow}
    {q m' : Machine} (h : branch b condition q = .ok flow m') : flow ≠ .quit := by
  rintro rfl
  unfold branch at h
  cases b with
  | none => cases h
  | some b =>
      dsimp only at h
      split at h
      · cases h
      · split at h
        · cases (ret_eq_ok h).1
        · split at h
          · cases (ret_eq_ok h).1
          · obtain ⟨u, r, -, h⟩ := bind_eq_ok.mp h
            cases h

/-! ## 4. How long a frame lasts -/

namespace Machine

/-- Frames were dropped from the top, or new ones put there. The others are as they were, up to the
values of their locals. -/
def Shifts (m m' : Machine) : Prop :=
  m'.frames.map Frame.shape <:+ m.frames.map Frame.shape ∨
    m.frames.map Frame.shape <:+ m'.frames.map Frame.shape

section Shifts

variable {sized : Prop} {m q m' : Machine}

theorem Shifts.after_calm (hc : Calm sized m q) (h : Shifts q m') : Shifts m m' := by
  unfold Shifts at h ⊢
  rwa [hc.shapes] at h

theorem Shifts.of_frames (h : m'.frames = m.frames) : Shifts m m' :=
  .inl ⟨[], congrArg (List.map Frame.shape) h⟩

theorem Calm.shifts (h : Calm sized m m') : Shifts m m' :=
  .after_calm h (.of_frames rfl)

theorem Jumped.shifts {offset : Int} (h : Jumped offset m m') : Shifts m m' := by
  obtain ⟨pc, -, -, rfl⟩ := h
  exact .of_frames rfl

theorem Entered.shifts {packed : Word} {args : List Word} {store : Option UInt8}
    (h : Entered packed args store m m') : Shifts m m' := by
  cases h with
  | mk addr locals pc _ _ => exact .inr ((List.suffix_cons _ _).map Frame.shape)

theorem Left.shifts {value : Word} (h : Left value m m') : Shifts m m' := by
  cases h with
  | mk frame caller rest hf hs =>
      have hq := (keeps_storeResult frame.returnStore value).ok hs
      refine .inl ?_
      rw [hq.shapes]
      exact ((List.suffix_cons frame (caller :: rest)).trans hf).map Frame.shape

/-- **One operation drops frames from the top or puts one there.** -/
theorem Leads.shifts {i : Instruction} {op : Operation} {args : List Word} {flow : Flow}
    (h : Leads sized i op args m flow m') : Shifts m m' := by
  cases h with
  | enters packed rest _ _ he => exact he.shifts
  | goes hg =>
      cases hg with
      | next hc => exact hc.shifts
      | quit hc => exact hc.shifts
      | branched b hq _ _ _ hj => exact .after_calm hq hj.shifts
      | jumped a hq _ hj => exact .after_calm hq hj.shifts
      | returned hq hl => exact .after_calm hq hl.shifts

theorem Fails.shifts (h : Fails sized m m') : Shifts m m' := by
  cases h with
  | mk q pc stack frames hc _ hf => exact .after_calm hc (.inl (hf.map Frame.shape))

/-- Frames at the bottom stay, as long as there are so many. -/
theorem Shifts.bottom {shapes : List (Nat × Option UInt8 × Nat × Nat × Nat)} (h : Shifts m m')
    (hs : shapes <:+ m.frames.map Frame.shape) (hle : shapes.length ≤ m'.depth) :
    shapes <:+ m'.frames.map Frame.shape := by
  rcases h with hdrop | hput
  · exact List.suffix_of_suffix_length_le hs hdrop (by rwa [List.length_map])
  · exact hs.trans hput

end Shifts

end Machine

namespace Session

open Machine

variable {H : Host} {s s₁ t u : Session H} {i j : Instruction} {packed n : Word}
  {args rest : List Word} {m q : Machine}

theorem shifts_of_next (hn : ¬ t.StepsBack) (hs : Next t u) : Shifts t.machine u.machine := by
  rcases hs with ⟨flow, hs⟩ | ⟨e, hs⟩
  · obtain ⟨i, op, args, m, -, hr, hl⟩ := step_leads hn hs
    exact .after_calm (m := (t.advance i).machine) hr.popped.quiet hl.shifts
  · obtain ⟨pc, hf⟩ := step_fails hn hs
    exact hf.shifts

/-- **The frames from a call on outlast every run inside the call**, up to the values of their
locals. -/
theorem shapes_of_inside (hcall : step s = .ok .called s₁)
    (hdepth : s₁.machine.depth = s.machine.depth + 1) (h : Inside StepsBack s t) :
    s₁.machine.frames.map Frame.shape <:+ t.machine.frames.map Frame.shape := by
  induction h with
  | entered h =>
      cases hcall.symm.trans h
      exact List.suffix_refl _
  | next _ hn hs hd ih =>
      refine (shifts_of_next hn hs).bottom ih ?_
      rw [List.length_map]
      exact Nat.le_trans (Nat.le_of_eq hdepth) hd

theorem Inside.called {leftOut : Session H → Prop} (h : Inside leftOut s t) :
    ∃ s₁, step s = .ok .called s₁ := by
  induction h with
  | entered h => exact ⟨_, h⟩
  | next _ _ _ _ ih => exact ih

theorem callsInto_of_called (he : s.Executes i .call) (hr : s.Reads i (packed :: args) m)
    (h : step s = .ok .called s₁) : CallsInto packed args i.store m s₁.machine := by
  have hp := (step_eq_ok_iff .called he hr nofun).mp h
  obtain ⟨m', hm, rfl⟩ := onMachine_eq_ok.mp hp
  have hm : call packed args i.store m = .ok .called m' := hm
  exact (called_iff.mp hm).2

/-- **The routine of a call finds the number of its arguments**, as long as it runs and whenever it
runs again. -/
theorem argCount_of_inside (he : s.Executes i .call) (hr : s.Reads i (packed :: args) m)
    (h : Inside StepsBack s t) (hdepth : t.machine.depth = s.machine.depth + 1) :
    ∃ f fs, t.machine.frames = f :: fs ∧ f.argCount = args.length := by
  obtain ⟨s₁, hcall⟩ := h.called
  obtain ⟨addr, b, g, -, -, -, hg, hs₁⟩ := callsInto_of_called he hr hcall
  have hframes : s₁.machine.frames = g :: s.machine.frames := by
    obtain ⟨k, rfl⟩ := hr.popped
    rw [hs₁]
    rfl
  have hdepth₁ : s₁.machine.depth = s.machine.depth + 1 := congrArg List.length hframes
  have hshapes := (shapes_of_inside hcall hdepth₁ h).eq_of_length (by
    rw [List.length_map, List.length_map]
    exact hdepth₁.trans hdepth.symm)
  rw [hframes] at hshapes
  obtain ⟨f, fs, hf, hfg, -⟩ := List.map_eq_cons_iff.mp hshapes.symm
  have hcount : f.argCount = g.argCount := congrArg (·.2.2.2.1) hfg
  exact ⟨f, fs, hf, hcount.trans hg.argCount⟩

/-- The next step, whose operands have been read on the machine `q`, is a branch on the
condition. -/
def BranchesOn (t : Session H) (j : Instruction) (q : Machine) (condition : Bool) : Prop :=
  (∀ flow m, branch j.branch condition q = .ok flow m →
    step t = .ok flow { t.ready j q with machine := m }) ∧
  ∀ e m, branch j.branch condition q = .error e m →
    step t = .error e { t.ready j q with machine := m, state := .failed }

theorem branchesOn_of_inside (he : s.Executes i .call) (hr : s.Reads i (packed :: args) m)
    (h : Inside StepsBack s t) (hdepth : t.machine.depth = s.machine.depth + 1)
    (he' : t.Executes j .checkArgCount) (hr' : t.Reads j (n :: rest) q) :
    t.BranchesOn j q (decide (n.toNat ≤ args.length)) := by
  obtain ⟨f, fs, hf, hcount⟩ := argCount_of_inside he hr h hdepth
  have hq : q.frames = f :: fs := by
    obtain ⟨k, rfl⟩ := hr'.popped
    exact hf
  have hcheck : Handler.checkArgCount j (n :: rest) q =
      branch j.branch (decide (n.toNat ≤ args.length)) q := by
    rw [Handler.checkArgCount_of_cons hq, hcount]
  refine ⟨fun flow m hb => ?_, fun e m hb => ?_⟩
  · exact step_of_perform he' hr' (onMachine_eq_ok.mpr ⟨m, hcheck.trans hb, rfl⟩)
      (ne_quit_of_branch hb)
  · exact step_of_perform_error he' hr' (onMachine_eq_error.mpr ⟨m, hcheck.trans hb, rfl⟩)

/-- **A call builds its frame exactly or changes nothing**, and the routine it enters can tell how
many arguments it was given: on every machine where its frame is the running one, and so at every
time of a run between the call and the return from it. -/
theorem call_exact :
    (∀ packed args store m,
      (∀ e m', call packed args store m = .error e m' → m' = m) ∧
      (∀ m', call packed args store m = .ok .called m' ↔
        packed ≠ 0 ∧ CallsInto packed args store m m') ∧
      ∀ m', call packed args store m = .ok .called m' → ∀ q,
        q.frames.head?.map Frame.shape = m'.frames.head?.map Frame.shape → ∀ j n rest,
          Handler.checkArgCount j (n :: rest) q =
            branch j.branch (decide (n.toNat ≤ args.length)) q) ∧
    ∀ (s t : Session H) i j packed args m n rest q, s.Executes i .call →
      s.Reads i (packed :: args) m → Inside StepsBack s t →
      t.machine.depth = s.machine.depth + 1 → t.Executes j .checkArgCount →
      t.Reads j (n :: rest) q → t.BranchesOn j q (decide (n.toNat ≤ args.length)) := by
  refine ⟨fun packed args store m => ⟨fun e m' => call_eq_error, fun m' => called_iff, ?_⟩, ?_⟩
  · intro m' h q hq j n rest
    obtain ⟨-, addr, b, g, -, -, -, hg, rfl⟩ := called_iff.mp h
    obtain ⟨f, hf, hfg⟩ := Option.map_eq_some_iff.mp hq
    obtain ⟨fs, hfs⟩ := List.head?_eq_some_iff.mp hf
    have hcount : f.argCount = g.argCount := congrArg (·.2.2.2.1) hfg
    rw [Handler.checkArgCount_of_cons hfs, hcount, hg.argCount]
  · intro s t i j packed args m n rest q he hr h hdepth he' hr'
    exact branchesOn_of_inside he hr h hdepth he' hr'

/-- A session in version 5 about to call a routine of one local with two arguments. The routine
changes its local and asks for the second argument. -/
def counting : Session Host.standard :=
  bare
    { memory := ⟨#[5, 0, 0, 0, 0, 0, 0, 0, 0, 0, 0, 0, 0, 0, 0, 0,
        0xe0, 0x17, 0x00, 0x08, 0x07, 0x09, 0x00, 0xba, 0, 0, 0, 0, 0, 0, 0, 0,
        1, 0x0d, 0x01, 0x05, 0xff, 0x7f, 0x02, 0xc4, 0xb0, 0xb0, 0xb1]⟩
      version := 5
      pc := 0x10
      stack := [3]
      frames := [Frame.main []]
      stackLimit := 1024 }

/-- The call that it starts with. -/
def callOfTwo : Instruction where
  opcode := ⟨.var, 0⟩
  form := .variable
  operands := [⟨.large, 8⟩, ⟨.small, 7⟩, ⟨.small, 9⟩]
  store := some 0
  branch := none
  textAddr := none
  size := 7

/-- The question for the second argument. -/
def askForSecond : Instruction where
  opcode := ⟨.var, 0x1f⟩
  form := .variable
  operands := [⟨.small, 2⟩]
  store := none
  branch := some ⟨true, 4⟩
  textAddr := none
  size := 4

theorem counting_finds_both :
    counting.Executes callOfTwo .call ∧
      counting.Reads callOfTwo [8, 7, 9] (counting.advance callOfTwo).machine ∧
      CallsInto 8 [7, 9] (some 0) (counting.advance callOfTwo).machine
        (counting.following 1).machine ∧
      Inside StepsBack counting (counting.following 2) ∧
      (counting.following 2).machine.depth = counting.machine.depth + 1 ∧
      (counting.following 2).Executes askForSecond .checkArgCount ∧
      (counting.following 2).BranchesOn askForSecond
        ((counting.following 2).advance askForSecond).machine true ∧
      (counting.following 2).flow? = some .branched := by
  have he : counting.Executes callOfTwo .call := ⟨rfl, eq_ok_of_toOption (by decide +kernel), rfl⟩
  have hr : counting.Reads callOfTwo [8, 7, 9] (counting.advance callOfTwo).machine := rfl
  have h₀ : step (counting.following 0) = .ok .called (counting.following 1) :=
    step_following (by decide +kernel)
  have hn₁ : ¬ (counting.following 1).StepsBack :=
    not_stepsBack_of_operation? (by decide +kernel : _ = some .store) nofun nofun nofun
  have hin : Inside StepsBack counting (counting.following 2) :=
    .next (.entered h₀) hn₁ (next_following _ _) (by decide +kernel)
  have hdepth : (counting.following 2).machine.depth = counting.machine.depth + 1 := by
    decide +kernel
  have he₂ : (counting.following 2).Executes askForSecond .checkArgCount :=
    ⟨by decide +kernel, eq_ok_of_toOption (by decide +kernel), by decide +kernel⟩
  have hcall : call 8 [7, 9] (some 0) (counting.advance callOfTwo).machine =
      .ok .called (counting.following 1).machine := rfl
  refine ⟨he, hr, ?_, hin, hdepth, he₂, ?_, by decide +kernel⟩
  · exact (((call_exact (H := Host.standard)).1 8 [7, 9] (some 0) _).2.1 _).mp hcall |>.2
  · exact call_exact.2 counting _ _ _ 8 [7, 9] _ 2 [] _ he hr hin hdepth he₂ rfl

end Session

end ZMachine
