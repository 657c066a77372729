import ZMachine.Proofs.Session.Bounds

/-!
# The value stack across calls

All routines share one value stack. A call notes how many values are on it, and the return drops
what has been added since; but nothing keeps the called routine from taking off, or replacing,
values that were there before. If it does not, the caller finds the stack as it was, with the result
on top if that is where it wants it.

* `Session.untouched?`         : how many values at the bottom of the stack an instruction leaves
  alone.
* `Machine.Founded`            : the called routine's frame notes the values at the call; these are
  still there as long as one is careful.
* `Session.founded_of_inside`  : the invariant, along a whole run.
* `Session.stack_after_return` : the stack after the return.
* `Session.robbed_stack`       : a routine that takes a value of its caller's.
-/

namespace ZMachine

open ZMachine.Action

namespace Machine

/-! ## 1. Values at the bottom -/

/-- What a return puts on the stack for a caller that wants the value in the given variable. -/
def delivered (store : Option UInt8) (value : Word) : List Word :=
  if store = some 0 then [value] else []

theorem stack_of_storeResult {store : Option UInt8} {value : Word} {m m' : Machine} {u : Unit}
    (h : storeResult store value m = .ok u m') : m'.stack = delivered store value ++ m.stack := by
  cases storeResult_eq_ok.mp h with
  | nowhere => rfl
  | stored var hs =>
      have hzero : var.toUInt16 = 0 → var = 0 := by
        intro h₀
        have hn := congrArg UInt16.toNat h₀
        rw [UInt8.toNat_toUInt16] at hn
        exact UInt8.toNat_inj.mp hn
      have hne (hvar : var.toUInt16 ≠ 0) : delivered (some var) value = [] := by
        refine if_neg fun h₀ => hvar ?_
        rw [Option.some.inj h₀]
        rfl
      cases hs with
      | pushed hvar _ =>
          rw [hzero hvar]
          rfl
      | inLocal f fs hvar _ _ _ => rw [hne hvar, List.nil_append]
      | inGlobal addr hvar _ _ _ =>
          rw [hne fun h₀ => hvar (by rw [h₀]; decide), List.nil_append]

/-- A return that drops no more than what is above some values leaves them. -/
theorem suffix_bottom {kept stack : List Word} {count : Nat} (h : kept <:+ stack)
    (hle : kept.length ≤ count) : kept <:+ bottom count stack := by
  refine List.suffix_of_suffix_length_le h (bottom_suffix count stack) ?_
  rw [length_bottom]
  exact Nat.le_min_of_le_of_le hle h.length_le

/-! ## 2. The frame of the called routine -/

/-- Right on top of the frames `base` stands one that notes as many values as there are in `kept`,
and has its result for `store`. If one is careful, these values are the lowest of the stack, and no
routine called since then notes fewer. -/
def Founded (careful : Prop) (base : List Frame) (store : Option UInt8) (kept : List Word)
    (m : Machine) : Prop :=
  ∃ above f, m.frames = above ++ f :: base ∧ f.returnStore = store ∧ f.stackBase = kept.length ∧
    (careful → kept <:+ m.stack ∧ ∀ g ∈ above, kept.length ≤ g.stackBase)

section Founded

variable {careful : Prop} {base : List Frame} {store : Option UInt8} {kept : List Word}
  {m m' : Machine}

theorem Founded.suffix (h : Founded careful base store kept m) (hc : careful) :
    kept <:+ m.stack := by
  obtain ⟨above, f, -, -, -, hk⟩ := h
  exact (hk hc).1

/-- The stack may change as long as the lowest values stay. -/
theorem Founded.withStack {stack : List Word} {pc : Nat} (h : Founded careful base store kept m)
    (hs : careful → kept <:+ stack) : Founded careful base store kept { m with stack, pc } := by
  obtain ⟨above, f, hf, hstore, hbase, hk⟩ := h
  exact ⟨above, f, hf, hstore, hbase, fun hc => ⟨hs hc, (hk hc).2⟩⟩

theorem Calm.founded {sized : Prop} (hcalm : Calm sized m m')
    (h : Founded careful base store kept m) (hs : careful → kept <:+ m'.stack) :
    Founded careful base store kept m' := by
  obtain ⟨above, f, hf, hstore, hbase, hk⟩ := h
  cases above with
  | nil =>
      obtain ⟨g, hg, hshape⟩ := hcalm.frames_cons hf
      have hstore' : g.returnStore = f.returnStore := congrArg (·.2.1) hshape
      have hbase' : g.stackBase = f.stackBase := congrArg (·.2.2.2.2) hshape
      exact ⟨[], g, hg, hstore'.trans hstore, hbase'.trans hbase, fun hc => ⟨hs hc, nofun⟩⟩
  | cons a above =>
      obtain ⟨g, hg, hshape⟩ := hcalm.frames_cons hf
      have hbase' : g.stackBase = a.stackBase := congrArg (·.2.2.2.2) hshape
      refine ⟨g :: above, f, hg, hstore, hbase, fun hc => ⟨hs hc, fun b hb => ?_⟩⟩
      rcases List.mem_cons.mp hb with rfl | hb
      · rw [hbase']
        exact (hk hc).2 a List.mem_cons_self
      · exact (hk hc).2 b (List.mem_cons_of_mem a hb)

/-- A routine that is called notes at least the values kept so far. -/
theorem Entered.founded {packed : Word} {args : List Word} {wanted : Option UInt8}
    (he : Entered packed args wanted m m') (h : Founded careful base store kept m) :
    Founded careful base store kept m' := by
  cases he with
  | mk addr locals pc _ _ =>
      obtain ⟨above, f, hf, hstore, hbase, hk⟩ := h
      refine ⟨_ :: above, f, List.cons_eq_cons.mpr ⟨rfl, hf⟩, hstore, hbase, fun hc => ?_⟩
      refine ⟨(hk hc).1, fun b hb => ?_⟩
      rcases List.mem_cons.mp hb with rfl | hb
      · exact (hk hc).1.length_le
      · exact (hk hc).2 b hb

/-- Frames that are dropped from the top leave the lower ones as they are. -/
theorem Founded.split {dropped frames : List Frame} (h : Founded careful base store kept m)
    (hs : dropped ++ frames = m.frames) (hl : base.length < frames.length) :
    ∃ above f, frames = above ++ f :: base ∧ f.returnStore = store ∧ f.stackBase = kept.length ∧
      (careful → kept <:+ m.stack ∧ ∀ g ∈ dropped ++ above, kept.length ≤ g.stackBase) := by
  obtain ⟨above, f, hf, hstore, hbase, hk⟩ := h
  have hle : (f :: base).length ≤ frames.length := hl
  obtain ⟨above', ha⟩ :=
    List.suffix_of_suffix_length_le ⟨above, hf.symm⟩ ⟨dropped, hs⟩ hle
  have happ : dropped ++ above' = above := by
    refine (List.append_left_inj (f :: base)).mp ?_
    rw [List.append_assoc, ha, hs, hf]
  exact ⟨above', f, ha.symm, hstore, hbase, happ.symm ▸ hk⟩

/-- A return inside the call, to a routine that is still above the callers. -/
theorem Left.founded {value : Word} (hl : Left value m m') (h : Founded careful base store kept m)
    (hd : base.length < m'.depth) : Founded careful base store kept m' := by
  cases hl with
  | mk frame caller rest hf hs =>
      have hq := (keeps_storeResult frame.returnStore value).ok hs
      obtain ⟨dropped, hdrop⟩ := hf
      have hlen : base.length < (caller :: rest).length := by
        rw [hq.depth] at hd
        exact hd
      have hcut : (dropped ++ [frame]) ++ caller :: rest = m.frames := by
        rw [List.append_assoc]
        exact hdrop
      obtain ⟨above, f, hfr, hstore, hbase, hk⟩ := h.split hcut hlen
      have hbottom (hc : careful) : kept <:+ bottom frame.stackBase m.stack :=
        suffix_bottom (hk hc).1 ((hk hc).2 frame (by simp))
      refine hq.founded ⟨above, f, hfr, hstore, hbase, fun hc => ⟨hbottom hc, fun g hg => ?_⟩⟩
        fun hc => (hbottom hc).trans hq.rest
      exact (hk hc).2 g (List.mem_append_right _ hg)

theorem Goes.founded {sized : Prop} {i : Instruction} {leap : Option Word} {reach : Nat}
    {flow : Flow} (hg : Goes sized i leap reach m flow m') (h : Founded careful base store kept m)
    (hr : careful → kept <:+ m.stack.drop reach) (hd : base.length < m'.depth) :
    Founded careful base store kept m' := by
  have hk {stack : List Word} (hs : m.stack.drop reach <:+ stack) : careful → kept <:+ stack :=
    fun hc => (hr hc).trans hs
  cases hg with
  | next hc hs => exact hc.founded h (hk hs)
  | quit hc hs => exact hc.founded h (hk hs)
  | branched b hq _ _ _ hj hs =>
      obtain ⟨pc, -, -, rfl⟩ := hj
      exact (hq.founded h (hk hs)).withStack (hk hs)
  | jumped a hq _ hj hs =>
      obtain ⟨pc, -, -, rfl⟩ := hj
      exact (hq.founded h (hk hs)).withStack (hk hs)
  | returned hq hl hs => exact hl.founded (hq.founded h (hk hs)) hd

theorem Leads.founded {sized : Prop} {i : Instruction} {op : Operation} {args : List Word}
    {flow : Flow} (hl : Leads sized i op args m flow m') (h : Founded careful base store kept m)
    (hr : careful → kept <:+ m.stack.drop (op.reach args m.version)) (hd : base.length < m'.depth) :
    Founded careful base store kept m' := by
  cases hl with
  | goes hg => exact hg.founded h hr hd
  | enters packed rest _ _ he => exact he.founded h

/-- **The return from the called routine** leaves at most as many values as there were at the call,
and these very values if they have been kept; the result is on top of them if the caller wants it
there. -/
theorem Left.founded_stack {value : Word} (hl : Left value m m')
    (h : Founded careful base store kept m) (hd : m'.depth = base.length) :
    ∃ rest, m'.stack = delivered store value ++ rest ∧ rest.length ≤ kept.length ∧
      (careful → rest = kept) := by
  cases hl with
  | mk frame caller rest hf hs =>
      have hq := (keeps_storeResult frame.returnStore value).ok hs
      have hlen : base.length = (caller :: rest).length := hd.symm.trans hq.depth
      obtain ⟨dropped, hdrop⟩ := hf
      -- Of the frames above the callers' the one that returns is the lowest.
      have hlt : base.length < (frame :: caller :: rest).length := by
        rw [List.length_cons, hlen]
        omega
      obtain ⟨above, f, hfr, rfl, hbase, hk⟩ := h.split hdrop hlt
      cases above with
      | cons a above =>
          have hlength := congrArg List.length hfr
          simp only [List.length_cons, List.cons_append, List.length_append] at hlength hlen
          omega
      | nil =>
          cases hfr
          have hle : (bottom frame.stackBase m.stack).length ≤ kept.length := by
            rw [length_bottom, hbase]
            exact Nat.min_le_left _ _
          refine ⟨_, stack_of_storeResult hs, hle, fun hc => ?_⟩
          exact ((suffix_bottom (hk hc).1 (Nat.le_of_eq hbase.symm)).eq_of_length_le hle).symm

theorem Leads.founded_stack {sized : Prop} {i : Instruction} {op : Operation} {args : List Word}
    {value : Word} (hl : Leads sized i op args m (.returned value) m')
    (h : Founded careful base store kept m)
    (hr : careful → kept <:+ m.stack.drop (op.reach args m.version))
    (hd : m'.depth = base.length) :
    ∃ rest, m'.stack = delivered store value ++ rest ∧ rest.length ≤ kept.length ∧
      (careful → rest = kept) := by
  cases hl with
  | goes hg =>
      cases hg with
      | returned hq hleft hs =>
          exact hleft.founded_stack (hq.founded h fun hc => (hr hc).trans hs) hd

end Founded

end Machine

/-! ## 3. Runs inside a call -/

namespace Session

variable {H : Host} {s s₁ t u : Session H} {i : Instruction} {op : Operation} {careful : Prop}

/-- How many values at the bottom of the stack the next instruction leaves alone, reading its
operands included; the values that a return drops do not count. -/
def untouched? (s : Session H) : Option Nat :=
  match Instruction.decode s.machine.memory s.machine.pc s.machine.version with
  | .error _ => none
  | .ok i =>
      match Operation.standard.lookup i.opcode s.machine.version,
        Machine.resolve i.operands (s.advance i).machine with
      | some op, .ok args m => some (m.stack.length - op.reach args m.version)
      | _, _ => none

/-- The next instruction takes off, or puts another in the place of, one of the lowest `count`
values on the stack. -/
def Reaches (count : Nat) (s : Session H) : Prop :=
  ∃ n ∈ s.untouched?, n < count

instance (count : Nat) (s : Session H) : Decidable (Reaches count s) :=
  Option.decidableExistsMem s.untouched?

theorem untouched?_eq {args : List Word} {m : Machine} (he : s.Executes i op)
    (hr : s.Reads i args m) :
    s.untouched? = some (m.stack.length - op.reach args m.version) := by
  have hm : Machine.resolve i.operands (s.advance i).machine = .ok args m := hr
  unfold untouched?
  rw [he.decoded]
  dsimp only
  rw [he.found, hm]

/-- What an instruction does not reach is still there once it has spent what it spends. -/
theorem kept_of_not_reaches {args : List Word} {m : Machine} {kept : List Word}
    (he : s.Executes i op) (hr : s.Reads i args m) (hn : ¬ s.Reaches kept.length)
    (hk : kept <:+ s.machine.stack) : kept <:+ m.stack.drop (op.reach args m.version) := by
  obtain ⟨n, rfl⟩ := hr.popped
  have hle : kept.length ≤ _ :=
    Nat.le_of_not_lt fun hlt => hn ⟨_, untouched?_eq he hr, hlt⟩
  refine List.suffix_of_suffix_length_le hk ?_ (by rw [List.length_drop]; exact hle)
  exact (List.drop_suffix _ _).trans (List.drop_suffix _ _)

theorem founded_of_called (he : s.Executes i op) (h : step s = .ok .called t) :
    Machine.Founded careful s.machine.frames i.store t.machine.stack t.machine := by
  obtain ⟨j, op', args, m, u, he', hr, hp, sink, state, rfl⟩ := step_eq_ok h
  obtain ⟨rfl, rfl⟩ := he.unique he'
  have hcall := Operation.eq_call_of_perform hp
  subst hcall
  obtain ⟨n, rfl⟩ := hr.popped
  obtain ⟨m', hm, rfl⟩ := onMachine_eq_ok.mp hp
  rcases Handler.meets_callRoutine.ok hm with hg | ⟨-, packed, rest, -, hent⟩
  · exact absurd rfl hg.ne_called
  · cases hent with
    | mk addr locals pc _ _ =>
        exact ⟨[], _, rfl, rfl, rfl, fun _ => ⟨List.suffix_refl _, nofun⟩⟩

/-- The next step turns back, or it is not careful: it reaches one of the lowest values. -/
def Meddles (careful : Prop) (count : Nat) (s : Session H) : Prop :=
  s.StepsBack ∨ careful ∧ s.Reaches count

/-- One step taken apart, for a machine with its operands read. -/
theorem leads_of_not_meddles {base : List Frame} {store : Option UInt8} {kept : List Word}
    {flow : Flow} (hn : ¬ t.Meddles careful kept.length) (hs : step t = .ok flow u)
    (h : Machine.Founded careful base store kept t.machine) :
    ∃ i op args m, Machine.Leads H.KeepsSize i op args m flow u.machine ∧
      Machine.Founded careful base store kept m ∧
      (careful → kept <:+ m.stack.drop (op.reach args m.version)) := by
  obtain ⟨i, op, args, m, he, hr, hl⟩ := step_leads (fun hb => hn (.inl hb)) hs
  have hk (hc : careful) : kept <:+ m.stack.drop (op.reach args m.version) :=
    kept_of_not_reaches he hr (fun hreach => hn (.inr ⟨hc, hreach⟩)) (h.suffix hc)
  have hadvance : Machine.Founded careful base store kept (t.advance i).machine := h
  refine ⟨i, op, args, m, hl, ?_, hk⟩
  exact hr.popped.quiet.founded hadvance fun hc => (hk hc).trans (List.drop_suffix _ _)

/-- **What the called routine's frame notes outlasts every run inside the call**, and so do the
values that were on the stack, if each step is careful. -/
theorem founded_of_inside (he : s.Executes i op) (h₁ : step s = .ok .called s₁)
    (h : Inside (Meddles careful s₁.machine.stack.length) s t) (hrun : t.state = .running) :
    Machine.Founded careful s.machine.frames i.store s₁.machine.stack t.machine := by
  induction h with
  | entered h =>
      rw [h₁] at h
      cases h
      exact founded_of_called he h₁
  | @next t u _ hn hs hd ih =>
      rcases hs with ⟨flow, hs⟩ | ⟨e, hs⟩
      · obtain ⟨i, op, args, m, hl, hf, hk⟩ := leads_of_not_meddles hn hs (ih (running_of_step hs))
        exact hl.founded hf hk hd
      · exact absurd hrun (finished_of_step_error hs)

/-- The same at the return. -/
theorem stack_of_returned {value : Word} (he : s.Executes i op) (h₁ : step s = .ok .called s₁)
    (h : Inside (Meddles careful s₁.machine.stack.length) s t)
    (hn : ¬ t.Meddles careful s₁.machine.stack.length) (hr : step t = .ok (.returned value) u)
    (hd : u.machine.depth = s.machine.depth) :
    ∃ rest, u.machine.stack = Machine.delivered i.store value ++ rest ∧
      rest.length ≤ s₁.machine.stack.length ∧ (careful → rest = s₁.machine.stack) := by
  have hf := founded_of_inside he h₁ h (running_of_step hr)
  obtain ⟨j, op', args, m, hl, hf, hk⟩ := leads_of_not_meddles hn hr hf
  exact hl.founded_stack hf hk hd

theorem Inside.mono {leftOut leftOut' : Session H → Prop} (hl : ∀ r, leftOut' r → leftOut r)
    (h : Inside leftOut s t) : Inside leftOut' s t := by
  induction h with
  | entered h => exact .entered h
  | next _ hn hs hd ih => exact .next ih (fun h' => hn (hl _ h')) hs hd

/-- **The value stack after a return.** It has at most as many values as right after the call, and
the result on top if the caller wants it there. These are the very values of that time if no step of
the called routine, the return included, reaches them. -/
theorem stack_after_return {value : Word} (he : s.Executes i op) (h₁ : step s = .ok .called s₁)
    (h : Inside StepsBack s t) (hn : ¬ t.StepsBack) (hr : step t = .ok (.returned value) u)
    (hd : u.machine.depth = s.machine.depth) :
    ∃ rest, u.machine.stack = Machine.delivered i.store value ++ rest ∧
      rest.length ≤ s₁.machine.stack.length ∧
      (Inside (fun r => r.StepsBack ∨ r.Reaches s₁.machine.stack.length) s t →
        ¬ t.Reaches s₁.machine.stack.length → rest = s₁.machine.stack) := by
  have hloose (r : Session H) : r.Meddles False s₁.machine.stack.length → r.StepsBack :=
    fun hm => hm.resolve_right fun hf => hf.1
  obtain ⟨rest, hstack, hle, -⟩ :=
    stack_of_returned he h₁ (h.mono hloose) (fun hm => hn (hloose t hm)) hr hd
  refine ⟨rest, hstack, hle, fun hin hreach => ?_⟩
  have hcareful (r : Session H) : r.Meddles True s₁.machine.stack.length →
      r.StepsBack ∨ r.Reaches s₁.machine.stack.length :=
    fun hm => hm.imp_right fun hf => hf.2
  obtain ⟨rest', hstack', -, heq⟩ :=
    stack_of_returned he h₁ (hin.mono hcareful) (fun hm => (hcareful t hm).elim hn hreach) hr hd
  rw [hstack, heq trivial] at hstack'
  exact List.append_cancel_left hstack'

/-- A story in version 5 that calls a routine with one value on the stack, which adds two and
returns the last. -/
def lending : Session Host.standard :=
  started
    #[5, 0, 0, 0, 0, 0, 0, 0x40, 0, 0, 0, 0, 0, 0, 0, 0x40,
      0, 0, 0, 0, 0, 0, 0, 0, 0, 0, 0, 0, 0, 0, 0, 0,
      0, 0, 0, 0, 0, 0, 0, 0, 0, 0, 0, 0, 0, 0, 0, 0,
      0, 0, 0, 0, 0, 0, 0, 0, 0, 0, 0, 0, 0, 0, 0, 0,
      0xe8, 0x7f, 7, 0x88, 0, 0x12, 0, 0xba, 0, 0xe8, 0x7f, 9, 0xe8, 0x7f, 8, 0xb8] {}

/-- A call of the routine at a packed address, without arguments. -/
def bareCall (number : UInt8) (packed : Word) (store : Option UInt8) (size : Nat) : Instruction :=
  { opcode := ⟨.op1, number⟩
    form := .short
    operands := [⟨.large, packed⟩]
    store
    branch := none
    textAddr := none
    size }

theorem lending_stack :
    (lending.following 1).Executes (bareCall 8 0x12 (some 0) 4) .call ∧
      step (lending.following 1) = .ok .called (lending.following 2) ∧
      Inside (fun r => r.StepsBack ∨ r.Reaches (lending.following 2).machine.stack.length)
        (lending.following 1) (lending.following 4) ∧
      ¬ (lending.following 4).Reaches (lending.following 2).machine.stack.length ∧
      step (lending.following 4) = .ok (.returned 8) (lending.following 5) ∧
      (lending.following 5).machine.depth = (lending.following 1).machine.depth ∧
      (lending.following 5).machine.stack = 8 :: (lending.following 2).machine.stack := by
  have he : (lending.following 1).Executes (bareCall 8 0x12 (some 0) 4) .call :=
    ⟨by decide +kernel, eq_ok_of_toOption (by decide +kernel), by decide +kernel⟩
  have h₁ : step (lending.following 1) = .ok .called (lending.following 2) :=
    step_following (by decide +kernel)
  have h₄ : step (lending.following 4) = .ok (.returned 8) (lending.following 5) :=
    step_following (by decide +kernel)
  have hb₂ : ¬ (lending.following 2).StepsBack :=
    not_stepsBack_of_operation? (by decide +kernel : _ = some .push) nofun nofun nofun
  have hb₃ : ¬ (lending.following 3).StepsBack :=
    not_stepsBack_of_operation? (by decide +kernel : _ = some .push) nofun nofun nofun
  have hb₄ : ¬ (lending.following 4).StepsBack :=
    not_stepsBack_of_operation? (by decide +kernel : _ = some .retPopped) nofun nofun nofun
  have hr₂ : ¬ (lending.following 2).Reaches (lending.following 2).machine.stack.length := by
    decide +kernel
  have hr₃ : ¬ (lending.following 3).Reaches (lending.following 2).machine.stack.length := by
    decide +kernel
  have hr₄ : ¬ (lending.following 4).Reaches (lending.following 2).machine.stack.length := by
    decide +kernel
  have hin : Inside (fun r => r.StepsBack ∨ r.Reaches (lending.following 2).machine.stack.length)
      (lending.following 1) (lending.following 4) :=
    .next (.next (.entered h₁) (not_or.mpr ⟨hb₂, hr₂⟩) (next_following _ _) (by decide +kernel))
      (not_or.mpr ⟨hb₃, hr₃⟩) (next_following _ _) (by decide +kernel)
  have hd : (lending.following 5).machine.depth = (lending.following 1).machine.depth := by
    decide +kernel
  obtain ⟨rest, hstack, -, hrest⟩ :=
    stack_after_return he h₁ (hin.mono fun _ => .inl) hb₄ h₄ hd
  rw [hrest hin hr₄] at hstack
  exact ⟨he, h₁, hin, hr₄, h₄, hd, hstack⟩

/-- A story in version 5 that calls a routine with one value on the stack, which takes it off. -/
def robbed : Session Host.standard :=
  started
    #[5, 0, 0, 0, 0, 0, 0, 0x40, 0, 0, 0, 0, 0, 0, 0, 0x40,
      0, 0, 0, 0, 0, 0, 0, 0, 0, 0, 0, 0, 0, 0, 0, 0,
      0, 0, 0, 0, 0, 0, 0, 0, 0, 0, 0, 0, 0, 0, 0, 0,
      0, 0, 0, 0, 0, 0, 0, 0, 0, 0, 0, 0, 0, 0, 0, 0,
      0xe8, 0x7f, 7, 0x8f, 0, 0x12, 0xba, 0, 1, 0xe9, 0x7f, 1, 0xb0] {}

/-- **A called routine can take its caller's values off the stack**: without any restart or restore
in between, the stack is not what it was at the call. -/
theorem robbed_stack :
    (robbed.following 1).Executes (bareCall 0x0f 0x12 none 3) .call ∧
      step (robbed.following 1) = .ok .called (robbed.following 2) ∧
      Inside (fun r => r.operation? ∈ [some .restart, some .restore, some .restoreUndo])
        (robbed.following 1) (robbed.following 3) ∧
      step (robbed.following 3) = .ok (.returned 1) (robbed.following 4) ∧
      (robbed.following 4).machine.depth = (robbed.following 1).machine.depth ∧
      (robbed.following 4).machine.stack ≠
        Machine.delivered none 1 ++ (robbed.following 2).machine.stack := by
  have he : (robbed.following 1).Executes (bareCall 0x0f 0x12 none 3) .call :=
    ⟨by decide +kernel, eq_ok_of_toOption (by decide +kernel), by decide +kernel⟩
  have h₁ : step (robbed.following 1) = .ok .called (robbed.following 2) :=
    step_following (by decide +kernel)
  have h₃ : step (robbed.following 3) = .ok (.returned 1) (robbed.following 4) :=
    step_following (by decide +kernel)
  refine ⟨he, h₁, .next (.entered h₁) ?_ (next_following _ _) ?_, h₃, ?_, ?_⟩
  · decide +kernel
  · decide +kernel
  · decide +kernel
  · decide +kernel

end Session

end ZMachine
