import ZMachine.Proofs.Session.Step

/-!
# Calls and returns are bracketed

Between a call and the return from it the frames of the callers stay as they are, whatever the
called routine does: calls of its own to any depth, jumps, branches that return, throws across
several frames, faults. When the routine returns, its caller goes on behind the call, with at most
one local changed.

* `Machine.Atop`              : the frame of the called routine stands on those of its callers.
* `Session.Inside`            : the sessions between a call and the return from it.
* `Session.atop_of_inside`    : the invariant, along a whole run.
* `Session.inside_bracketed`  : frames and program counter, during the call and after it.
-/

namespace ZMachine

open ZMachine.Action

/-! ## 1. Frames on top of the callers' -/

namespace Machine

/-- Right on top of the frames `base` stands one that returns to `pc`, with its result for
`store`. -/
def Atop (base : List Frame) (pc : Nat) (store : Option UInt8) (m : Machine) : Prop :=
  ∃ above f, m.frames = above ++ f :: base ∧ f.returnPc = pc ∧ f.returnStore = store

section Atop

variable {base : List Frame} {pc : Nat} {store : Option UInt8} {m m' : Machine}

theorem Atop.suffix (h : Atop base pc store m) : base <:+ m.frames := by
  obtain ⟨above, f, hf, -⟩ := h
  exact ⟨above ++ [f], by rw [hf, List.append_assoc]; rfl⟩

/-- Frames that are dropped from the top do not matter as long as one is left above the callers'. -/
theorem Atop.drop {frames : List Frame} (h : Atop base pc store m) (hs : frames <:+ m.frames)
    (hl : base.length < frames.length) :
    ∃ above f, frames = above ++ f :: base ∧ f.returnPc = pc ∧ f.returnStore = store := by
  obtain ⟨above, f, hf, hret⟩ := h
  obtain ⟨dropped, hd⟩ := hs
  have hle : (f :: base).length ≤ frames.length := hl
  obtain ⟨above', ha⟩ := List.suffix_of_suffix_length_le ⟨above, hf.symm⟩ ⟨dropped, hd⟩ hle
  exact ⟨above', f, ha.symm, hret⟩

theorem Atop.lt_depth (h : Atop base pc store m) : base.length < m.depth := by
  obtain ⟨above, f, hf, -⟩ := h
  unfold Machine.depth
  rw [hf, List.length_append, List.length_cons]
  omega

theorem Calm.atop {sized : Prop} (hc : Calm sized m m') (h : Atop base pc store m) :
    Atop base pc store m' := by
  obtain ⟨above, f, hf, hret⟩ := h
  cases above with
  | nil =>
      obtain ⟨g, hg, hs⟩ := hc.frames_cons hf
      have hpc : g.returnPc = f.returnPc := congrArg (·.1) hs
      have hstore : g.returnStore = f.returnStore := congrArg (·.2.1) hs
      exact ⟨[], g, hg, hpc.trans hret.1, hstore.trans hret.2⟩
  | cons a above =>
      obtain ⟨g, hg, -⟩ := hc.frames_cons hf
      exact ⟨g :: above, f, hg, hret⟩

theorem Jumped.atop {offset : Int} (hj : Jumped offset m m') (h : Atop base pc store m) :
    Atop base pc store m' := by
  obtain ⟨pc, -, -, rfl⟩ := hj
  exact h

theorem Entered.atop {packed : Word} {args : List Word} {wanted : Option UInt8}
    (he : Entered packed args wanted m m') (h : Atop base pc store m) : Atop base pc store m' := by
  cases he with
  | mk addr locals pc _ _ =>
      obtain ⟨above, f, hf, hret⟩ := h
      exact ⟨_ :: above, f, List.cons_eq_cons.mpr ⟨rfl, hf⟩, hret⟩

theorem Left.atop {value : Word} (hl : Left value m m') (h : Atop base pc store m)
    (hd : base.length < m'.depth) : Atop base pc store m' := by
  cases hl with
  | mk frame caller rest hf hs =>
      have hq := (keeps_storeResult frame.returnStore value).ok hs
      have hle : base.length < (caller :: rest).length := by
        rw [hq.depth] at hd
        exact hd
      exact hq.atop (h.drop ((List.suffix_cons frame (caller :: rest)).trans hf) hle)

theorem Goes.atop {sized : Prop} {i : Instruction} {leap : Option Word} {reach : Nat} {flow : Flow}
    (hg : Goes sized i leap reach m flow m') (h : Atop base pc store m)
    (hd : base.length < m'.depth) : Atop base pc store m' := by
  cases hg with
  | next hc => exact hc.atop h
  | quit hc => exact hc.atop h
  | branched b hq _ _ _ hj => exact hj.atop (hq.atop h)
  | jumped a hq _ hj => exact hj.atop (hq.atop h)
  | returned hq hl => exact hl.atop (hq.atop h) hd

theorem Leads.atop {sized : Prop} {i : Instruction} {op : Operation} {args : List Word}
    {flow : Flow} (hl : Leads sized i op args m flow m') (h : Atop base pc store m)
    (hd : base.length < m'.depth) : Atop base pc store m' := by
  cases hl with
  | goes hg => exact hg.atop h hd
  | enters packed rest _ _ he => exact he.atop h

theorem Fails.atop {sized : Prop} (hf : Fails sized m m') (h : Atop base pc store m)
    (hd : base.length < m'.depth) : Atop base pc store m' := by
  cases hf with
  | mk q pc stack frames hc _ hs => exact (hc.atop h).drop hs hd

end Atop

/-- What a return leaves of the frames below: they are all as they were, but for the local of the
topmost that receives the value. -/
inductive Resumed (store : Option UInt8) : List Frame → List Frame → Prop where
  | same (frames : List Frame) : Resumed store frames frames
  | changed (f : Frame) (rest : List Frame) (var : UInt8) (value : Word) (hs : store = some var)
      (h₁ : 1 ≤ var) (h₂ : var ≤ 15) :
      Resumed store (f :: rest)
        ({ f with locals := f.locals.set (var.toNat - 1) value } :: rest)

theorem resumed_of_storeResult {store : Option UInt8} {value : Word} {m m' : Machine} {u : Unit}
    (h : storeResult store value m = .ok u m') : Resumed store m.frames m'.frames := by
  cases storeResult_eq_ok.mp h with
  | nowhere => exact .same _
  | stored var hs =>
      cases hs with
      | pushed _ _ => exact .same _
      | inGlobal addr _ _ _ _ => exact .same _
      | inLocal f fs hvar hlt hf _ =>
          have hn : var.toUInt16.toNat = var.toNat := UInt8.toNat_toUInt16 var
          have h₁ : 1 ≤ var := by
            rw [UInt8.le_iff_toNat_le]
            have : var.toUInt16.toNat ≠ 0 := fun h₀ => hvar (UInt16.toNat_inj.mp h₀)
            show 1 ≤ var.toNat
            omega
          have h₂ : var ≤ 15 := by
            rw [UInt16.lt_iff_toNat_lt, hn] at hlt
            rw [UInt8.le_iff_toNat_le]
            exact Nat.le_of_lt_succ hlt
          rw [hf, hn]
          exact .changed f fs var value rfl h₁ h₂

/-- A return that drops the frame on top of the callers', and no more, is a return from the routine
of that frame. -/
theorem Left.resumed {value : Word} {base : List Frame}
    {pc : Nat} {store : Option UInt8} {m m' : Machine} (hl : Left value m m')
    (h : Atop base pc store m) (hd : m'.depth = base.length) :
    m'.pc = pc ∧ Resumed store base m'.frames := by
  cases hl with
  | mk frame caller rest hf hs =>
      have hq := (keeps_storeResult frame.returnStore value).ok hs
      have hlen : base.length = (caller :: rest).length := hd.symm.trans hq.depth
      -- Of the frames above the callers' the one that returns is the lowest.
      have hlt : base.length < (frame :: caller :: rest).length := by
        rw [List.length_cons, hlen]
        omega
      obtain ⟨above, f, hfr, rfl, rfl⟩ := h.drop hf hlt
      cases above with
      | cons a above =>
          have hlength := congrArg List.length hfr
          simp only [List.length_cons, List.cons_append, List.length_append] at hlength hlen
          omega
      | nil =>
          cases hfr
          exact ⟨hq.pc, resumed_of_storeResult hs⟩

theorem Leads.resumed {sized : Prop} {i : Instruction} {op : Operation} {args : List Word}
    {flow : Flow} {base : List Frame} {pc : Nat} {store : Option UInt8} {m m' : Machine}
    (hl : Leads sized i op args m flow m') (h : Atop base pc store m) (hd : m'.depth = base.length) :
    m'.pc = pc ∧ Resumed store base m'.frames := by
  cases hl with
  | enters packed rest _ _ he => exact absurd (he.atop h).lt_depth (by omega)
  | goes hg =>
      cases hg with
      | next hc => exact absurd (hc.atop h).lt_depth (by omega)
      | quit hc => exact absurd (hc.atop h).lt_depth (by omega)
      | branched b hq _ _ _ hj => exact absurd (hj.atop (hq.atop h)).lt_depth (by omega)
      | jumped a hq _ hj => exact absurd (hj.atop (hq.atop h)).lt_depth (by omega)
      | returned hq hleft => exact hleft.resumed (hq.atop h) hd

end Machine

/-! ## 2. Runs between a call and the return from it -/

namespace Session

variable {H : Host} {s t u : Session H} {i : Instruction} {op : Operation}

/-- One session follows another by a step, which may fail. -/
def Next (s t : Session H) : Prop :=
  (∃ flow, step s = .ok flow t) ∨ ∃ e, step s = .error e t

theorem next_following (s : Session H) (n : Nat) : Next (s.following n) (s.following (n + 1)) := by
  cases hs : step (s.following n) with
  | ok flow t =>
      have ht : s.following (n + 1) = t := by rw [following, hs]
      rw [ht]
      exact .inl ⟨flow, hs⟩
  | error e t =>
      have ht : s.following (n + 1) = t := by rw [following, hs]
      rw [ht]
      exact .inr ⟨e, hs⟩

/-- The sessions from a call on, for as long as more routines are running than at the call. No step
in between is of the kind left out. -/
inductive Inside (leftOut : Session H → Prop) (s : Session H) : Session H → Prop where
  | entered {t : Session H} (h : step s = .ok .called t) : Inside leftOut s t
  | next {t u : Session H} (h : Inside leftOut s t) (hn : ¬ leftOut t) (hs : Next t u)
      (hd : s.machine.depth < u.machine.depth) : Inside leftOut s u

/-- A call puts a frame on top of the others that returns behind it. -/
theorem atop_of_called (he : s.Executes i op) (h : step s = .ok .called t) :
    Machine.Atop s.machine.frames (s.machine.pc + i.size) i.store t.machine := by
  obtain ⟨j, op', args, m, u, he', hr, hp, sink, state, rfl⟩ := step_eq_ok h
  obtain ⟨rfl, rfl⟩ := he.unique he'
  have hcall := Operation.eq_call_of_perform hp
  subst hcall
  obtain ⟨n, rfl⟩ := hr.popped
  obtain ⟨m', hm, rfl⟩ := onMachine_eq_ok.mp hp
  rcases Handler.meets_callRoutine.ok hm with hg | ⟨-, packed, rest, -, hent⟩
  · exact absurd rfl hg.ne_called
  · cases hent with
    | mk addr locals pc _ _ => exact ⟨[], _, rfl, rfl, rfl⟩

/-- One step does not touch the callers. -/
theorem atop_of_next {base : List Frame} {pc : Nat} {store : Option UInt8}
    (hn : ¬ t.StepsBack) (hs : Next t u) (h : Machine.Atop base pc store t.machine)
    (hd : base.length < u.machine.depth) : Machine.Atop base pc store u.machine := by
  rcases hs with ⟨flow, hs⟩ | ⟨e, hs⟩
  · obtain ⟨i, op, args, m, -, hr, hl⟩ := step_leads hn hs
    have ha : Machine.Atop base pc store (t.advance i).machine := h
    exact hl.atop (hr.popped.quiet.atop ha) hd
  · obtain ⟨pc', hf⟩ := step_fails hn hs
    have ha : Machine.Atop base pc store { t.machine with pc := pc' } := h
    exact hf.atop ha hd

/-- **The callers' frames, and what the called routine returns to, outlast every run inside the
call.** -/
theorem atop_of_inside (he : s.Executes i op) (h : Inside StepsBack s t) :
    Machine.Atop s.machine.frames (s.machine.pc + i.size) i.store t.machine := by
  induction h with
  | entered h => exact atop_of_called he h
  | next _ hn hs hd ih => exact atop_of_next hn hs ih hd

/-- **Calls and returns are bracketed.** As long as more routines are running than at a call, the
frames of that time are all there. The first step after which they are not, if it succeeds and drops
no more than the called routine, leads behind the call and changes at most the caller's local that
the call names. -/
theorem inside_bracketed (he : s.Executes i op) (h : Inside StepsBack s t) :
    s.machine.frames <:+ t.machine.frames ∧
      ∀ flow u, ¬ t.StepsBack → step t = .ok flow u → u.machine.depth = s.machine.depth →
        u.machine.pc = s.machine.pc + i.size ∧
          Machine.Resumed i.store s.machine.frames u.machine.frames := by
  have ha := atop_of_inside he h
  refine ⟨ha.suffix, fun flow u hn hs hd => ?_⟩
  obtain ⟨j, op', args, m, -, hr, hl⟩ := step_leads hn hs
  have ha' : Machine.Atop s.machine.frames (s.machine.pc + i.size) i.store (t.advance j).machine := ha
  exact hl.resumed (hr.popped.quiet.atop ha') hd

/-- A session about to call a routine that calls another one, in version 3. -/
def nested : Session Host.standard :=
  bare
    { memory := ⟨#[3, 0, 0, 0, 0, 0, 0, 0, 0, 0, 0, 0, 0, 0, 0, 0,
        0xe0, 0x3f, 0x00, 0x0c, 0x01, 0xba, 0, 0, 0, 0xe0, 0x3f, 0x00, 0x10, 0x00, 0xb8, 0,
        0, 0xb0]⟩
      version := 3
      pc := 0x10
      stack := []
      frames := [Frame.main [7]]
      stackLimit := 1024 }

theorem nested_bracketed :
    ∃ i, nested.Executes i .call ∧ Inside StepsBack nested (nested.following 3) ∧
      ¬ (nested.following 3).StepsBack ∧
      step (nested.following 3) = .ok (.returned 1) (nested.following 4) ∧
      (nested.following 4).machine.depth = nested.machine.depth ∧
      nested.machine.frames <:+ (nested.following 3).machine.frames ∧
      (nested.following 4).machine.pc = nested.machine.pc + i.size ∧
      Machine.Resumed i.store nested.machine.frames (nested.following 4).machine.frames := by
  have he : nested.Executes _ .call := ⟨rfl, rfl, rfl⟩
  have h₀ : step (nested.following 0) = .ok .called (nested.following 1) :=
    step_following (by decide +kernel)
  have h₃ : step (nested.following 3) = .ok (.returned 1) (nested.following 4) :=
    step_following (by decide +kernel)
  have hn₁ : ¬ (nested.following 1).StepsBack :=
    not_stepsBack_of_operation? (by decide +kernel : _ = some .call) nofun nofun nofun
  have hn₂ : ¬ (nested.following 2).StepsBack :=
    not_stepsBack_of_operation? (by decide +kernel : _ = some .rtrue) nofun nofun nofun
  have hn₃ : ¬ (nested.following 3).StepsBack :=
    not_stepsBack_of_operation? (by decide +kernel : _ = some .retPopped) nofun nofun nofun
  have hin : Inside StepsBack nested (nested.following 3) :=
    .next (.next (.entered h₀) hn₁ (next_following _ _) (by decide +kernel)) hn₂
      (next_following _ _) (by decide +kernel)
  have hd : (nested.following 4).machine.depth = nested.machine.depth := by decide +kernel
  have hb := inside_bracketed he hin
  exact ⟨_, he, hin, hn₃, h₃, hd, hb.1, hb.2 _ _ hn₃ h₃ hd⟩

/-! ## 3. Restores that fail halfway -/

/-- The next step starts the story again, or it restores and succeeds. -/
def Restores (s : Session H) : Prop :=
  s.operation? = some .restart ∨
    (s.operation? = some .restore ∨ s.operation? = some .restoreUndo) ∧ s.flow?.isSome = true

/-- A story in version 8 that calls a routine which keeps a move, changes a local, and calls another
one, which takes the move back after it has spoiled the instruction that kept it. -/
def spoiled : Session Host.standard :=
  let image : Array UInt8 :=
    #[8, 0, 0, 0, 0, 0, 0, 8, 0, 0, 0, 0, 0, 0, 0, 0x40,
      0, 0, 0, 0, 0, 0, 0, 0, 0, 0, 0, 0, 0, 0, 0, 0,
      0, 0, 0, 0, 0, 0, 0, 0, 0, 0, 0, 0, 0, 0, 0, 0,
      0, 0, 0, 0, 0, 0, 0, 0, 0, 0, 0, 0, 0, 0, 0, 0,
      1, 0x8f, 0, 0x0c, 0x0d, 1, 2, 0x8f, 0, 0x0d, 0xba, 0, 0, 0, 0, 0,
      0, 0, 0, 0, 0, 0, 0, 0, 0, 0, 0, 0, 0, 0, 0, 0,
      0, 0xbe, 9, 0xff, 0, 0xb0, 0, 0, 0, 0xe2, 0x17, 0, 0x64, 0, 0x0f, 0xbe,
      0x0a, 0xff, 0]
  match load image ⟨[], []⟩ {} 0 with
  | .ok s => s
  | .error _ => bare default

/-- **A restore that fails after the snapshot was put back leaves the snapshot's frames**, so it is
not enough to leave restores out that succeed. -/
theorem spoiled_not_bracketed :
    Inside Restores (spoiled.following 4) (spoiled.following 7) ∧
      ¬ (spoiled.following 4).machine.frames <:+ (spoiled.following 7).machine.frames := by
  have h₀ : step (spoiled.following 4) = .ok .called (spoiled.following 5) :=
    step_following (by decide +kernel)
  have hn₁ : ¬ (spoiled.following 5).Restores := by
    unfold Restores
    decide +kernel
  have hn₂ : ¬ (spoiled.following 6).Restores := by
    unfold Restores
    decide +kernel
  refine ⟨.next (.next (.entered h₀) hn₁ (next_following _ _) ?_) hn₂ (next_following _ _) ?_, ?_⟩
  · decide +kernel
  · decide +kernel
  · decide +kernel

end Session

end ZMachine
