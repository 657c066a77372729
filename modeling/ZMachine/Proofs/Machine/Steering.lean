import ZMachine.Proofs.Machine.Quiet

/-!
# Where control goes

What an instruction can do to the program counter and the call frames, told by the flow it reports:
go on behind itself, jump, or return. Calls, which build a frame, are a case of their own.

* `Machine.Jumped`, `Machine.Left`, `Machine.Entered` : a jump, a return, a call.
* `Machine.Goes`     : everything but calls, as a relation between the machine behind the
  instruction, the flow, and the machine after it; it also says how far down the stack this reaches.
* `Machine.Fails`    : what is left of the machine by an instruction that fails.
* `Machine.Steers`   : a computation whose results are all of this kind. Steady steps may come
  before.
* `Machine.SameMake` : what was settled when the story was loaded, which all of these leave alone.
-/

namespace ZMachine.Machine

open ZMachine.Action

/-! ## 1. The three transfers -/

/-- The machine after a jump by `offset - 2`, to a place in memory. -/
def Jumped (offset : Int) (m m' : Machine) : Prop :=
  ∃ pc : Nat, (pc : Int) = m.jumpOrigin + offset - 2 ∧ pc < m.memory.size ∧ m' = { m with pc }

theorem jump_eq_ok {offset : Int} {m m' : Machine} {u : Unit} :
    jump offset m = .ok u m' ↔ Jumped offset m m' := by
  unfold jump
  rw [get_bind]
  by_cases h : 0 ≤ m.jumpOrigin + offset - 2 ∧ m.jumpOrigin + offset - 2 < m.memory.size
  · rw [if_pos h]
    have hpc := Int.toNat_of_nonneg h.1
    constructor
    · intro h'
      cases h'
      exact ⟨_, hpc, by omega, rfl⟩
    · intro h
      obtain ⟨pc, hp, -, rfl⟩ := h
      rw [show (m.jumpOrigin + offset - 2).toNat = pc by omega]
      rfl
  · rw [if_neg h]
    constructor
    · intro h'
      cases h'
    · intro h
      obtain ⟨pc, hp, hlt, -⟩ := h
      omega

theorem jump_eq_error {offset : Int} {m m' : Machine} {e : Fault}
    (h : jump offset m = .error e m') : m' = m := by
  unfold jump at h
  rw [get_bind] at h
  split at h
  · cases h
  · cases h
    rfl

/-- The machine after a routine was left: one of those on the call stack returned to its caller, and
the value went where that caller wants it. -/
inductive Left (value : Word) (m : Machine) : Machine → Prop where
  | mk (frame caller : Frame) (rest : List Frame) {m' : Machine}
      (hf : frame :: caller :: rest <:+ m.frames)
      (hs : storeResult frame.returnStore value
        { m with
          pc := frame.returnPc
          stack := bottom frame.stackBase m.stack
          frames := caller :: rest } = .ok () m') :
      Left value m m'

/-- Leaving routines out of hand before one returns makes no difference to what a return is. -/
theorem Left.of_suffix {value : Word} {m m' : Machine} {frames : List Frame}
    (hs : frames <:+ m.frames) (h : Left value { m with frames } m') : Left value m m' := by
  cases h with
  | mk frame caller rest hf hstore => exact .mk frame caller rest (hf.trans hs) hstore

theorem bottom_suffix (count : Nat) (stack : List Word) : bottom count stack <:+ stack :=
  List.drop_suffix _ _

/-- All of a stack, if it has no more values than asked for. -/
theorem length_bottom (count : Nat) (stack : List Word) :
    (bottom count stack).length = min count stack.length := by
  rw [bottom, List.length_drop]
  omega

theorem ret_cons_cons {m : Machine} {frame caller : Frame} {rest : List Frame} (value : Word)
    (hf : m.frames = frame :: caller :: rest) :
    ret value m = (do
      storeResult frame.returnStore value
      return .returned value : Action Machine Flow)
        { m with
          pc := frame.returnPc
          stack := bottom frame.stackBase m.stack
          frames := caller :: rest } := by
  unfold ret
  rw [get_bind, hf]
  rfl

theorem ret_of_short {m : Machine} (value : Word) (hf : m.frames.length ≤ 1) :
    ret value m = .error .returnWithoutCaller m := by
  unfold ret
  rw [get_bind]
  match h : m.frames with
  | [] => rfl
  | [_] => rfl
  | frame :: caller :: rest =>
      rw [h, List.length_cons, List.length_cons] at hf
      omega

theorem ret_eq_ok {value : Word} {m m' : Machine} {flow : Flow} (h : ret value m = .ok flow m') :
    flow = .returned value ∧ Left value m m' := by
  match hf : m.frames with
  | [] => rw [ret_of_short value (by rw [hf]; decide)] at h; cases h
  | [_] => rw [ret_of_short value (by rw [hf]; exact Nat.le_refl 1)] at h; cases h
  | frame :: caller :: rest =>
      rw [ret_cons_cons value hf] at h
      obtain ⟨u, q, hs, h⟩ := bind_eq_ok.mp h
      cases h
      exact ⟨rfl, .mk frame caller rest ⟨[], hf.symm⟩ hs⟩

/-- A return that fails may have left the routine all the same: that happens if its result cannot be
stored. -/
theorem ret_eq_error {value : Word} {m m' : Machine} {e : Fault} (h : ret value m = .error e m') :
    ∃ pc stack frames, stack <:+ m.stack ∧ frames <:+ m.frames ∧
      m' = { m with pc, stack, frames } := by
  match hf : m.frames with
  | [] =>
      rw [ret_of_short value (by rw [hf]; decide)] at h
      cases h
      exact ⟨m.pc, m.stack, [], List.suffix_refl _, List.suffix_refl _, by rw [← hf]⟩
  | [f] =>
      rw [ret_of_short value (by rw [hf]; exact Nat.le_refl 1)] at h
      cases h
      exact ⟨m.pc, m.stack, [f], List.suffix_refl _, List.suffix_refl _, by rw [← hf]⟩
  | frame :: caller :: rest =>
      rw [ret_cons_cons value hf] at h
      rcases bind_eq_error.mp h with h | ⟨u, q, -, h⟩
      · rw [storeResult_eq_error h]
        exact ⟨_, _, _, bottom_suffix _ _, List.suffix_cons _ _, rfl⟩
      · cases h

theorem localCount_eq_ok {memory : Memory} {addr n : Nat} (h : localCount memory addr = .ok n) :
    ∃ count, memory.readByte addr = .ok count ∧ count.toNat ≤ maxLocals ∧ n = count.toNat := by
  obtain ⟨count, hb, h⟩ := except_bind_eq_ok.mp h
  split at h
  · cases h
  · rename_i hle
    cases h
    exact ⟨count, hb, Nat.le_of_not_gt hle, rfl⟩

theorem length_readWords {memory : Memory} {addr count : Nat} {words : List Word}
    (h : readWords memory addr count = .ok words) : words.length = count := by
  induction count generalizing addr words with
  | zero =>
      cases h
      rfl
  | succ count ih =>
      obtain ⟨w, -, h⟩ := except_bind_eq_ok.mp h
      obtain ⟨rest, hr, h⟩ := except_bind_eq_ok.mp h
      cases h
      rw [List.length_cons, ih hr]

/-- A routine declares its locals, and its code stands behind its header, which has the initial
values up to version 4. -/
theorem routineStart_eq_ok {memory : Memory} {version : UInt8} {addr pc : Nat} {locals : List Word}
    (h : routineStart memory version addr = .ok (locals, pc)) :
    ∃ count, memory.readByte addr = .ok count ∧ count.toNat ≤ maxLocals ∧
      locals.length = count.toNat ∧
      pc = if version ≤ 4 then addr + 1 + 2 * count.toNat else addr + 1 := by
  obtain ⟨n, hn, h⟩ := except_bind_eq_ok.mp h
  obtain ⟨count, hb, hle, rfl⟩ := localCount_eq_ok hn
  refine ⟨count, hb, hle, ?_⟩
  by_cases hv : version ≤ 4
  · rw [if_pos hv] at h ⊢
    obtain ⟨words, hw, h⟩ := except_bind_eq_ok.mp h
    cases h
    exact ⟨length_readWords hw, rfl⟩
  · rw [if_neg hv] at h ⊢
    cases h
    exact ⟨List.length_replicate, rfl⟩

/-- The machine after the routine at a packed address was entered. -/
inductive Entered (packed : Word) (args : List Word) (store : Option UInt8) (m : Machine) :
    Machine → Prop where
  | mk (addr : Nat) (locals : List Word) (pc : Nat) (ha : PackedAddress.routine m.memory packed = .ok addr)
      (hs : routineStart m.memory m.version addr = .ok (locals, pc)) :
      Entered packed args store m
        { m with
          pc
          frames :=
            { returnPc := m.pc
              returnStore := store
              locals := withArguments locals args
              argCount := args.length
              stackBase := m.stack.length } :: m.frames }

/-! ## 2. Results of an instruction -/

/-- How the machine behind an instruction gets to the machine after it, with the flow the
instruction reports; calls are left out. `leap` is the operand of an instruction that jumps
whatever happens, if it is one. Up to a return, which drops values of its own, only the topmost
`reach` values of the stack may be gone. -/
inductive Goes (sized : Prop) (i : Instruction) (leap : Option Word) (reach : Nat) (m : Machine) :
    Flow → Machine → Prop where
  | next {m' : Machine} (h : Calm sized m m') (hk : m.stack.drop reach <:+ m'.stack) :
      Goes sized i leap reach m .next m'
  | quit {m' : Machine} (h : Calm sized m m') (hk : m.stack.drop reach <:+ m'.stack) :
      Goes sized i leap reach m .quit m'
  | branched {q m' : Machine} (b : Branch) (h : Quiet m q) (hb : i.branch = some b)
      (h₀ : b.offset ≠ 0) (h₁ : b.offset ≠ 1) (hj : Jumped b.offset q m')
      (hk : m.stack.drop reach <:+ q.stack) : Goes sized i leap reach m .branched m'
  | jumped {q m' : Machine} (a : Word) (h : Quiet m q) (ha : leap = some a)
      (hj : Jumped a.toInt16.toInt q m') (hk : m.stack.drop reach <:+ q.stack) :
      Goes sized i leap reach m .branched m'
  | returned {q m' : Machine} {value : Word} (h : Quiet m q) (hl : Left value q m')
      (hk : m.stack.drop reach <:+ q.stack) : Goes sized i leap reach m (.returned value) m'

/-- What an instruction that fails leaves of the machine: it may have left routines, with their
values, but entered none. -/
inductive Fails (sized : Prop) (m : Machine) : Machine → Prop where
  | mk (q : Machine) (pc : Nat) (stack : List Word) (frames : List Frame) (h : Calm sized m q)
      (hs : stack <:+ q.stack) (hf : frames <:+ q.frames) :
      Fails sized m { q with pc, stack, frames }

section Compose

variable {sized : Prop} {i : Instruction} {leap : Option Word} {reach n : Nat} {m q m' : Machine}

theorem Goes.after {flow : Flow} (h : Spends True n m q) (hg : Goes sized i leap reach q flow m') :
    Goes sized i leap (n + reach) m flow m' := by
  have hk {stack : List Word} (hs : q.stack.drop reach <:+ stack) :
      m.stack.drop (n + reach) <:+ stack := by
    rw [← List.drop_drop]
    exact (drop_suffix_drop h.rest reach).trans hs
  cases hg with
  | next h' hs => exact .next ((Calm.of_quiet h.toCalm).trans h') (hk hs)
  | quit h' hs => exact .quit ((Calm.of_quiet h.toCalm).trans h') (hk hs)
  | branched b h' hb h₀ h₁ hj hs => exact .branched b (h.toCalm.trans h') hb h₀ h₁ hj (hk hs)
  | jumped a h' ha hj hs => exact .jumped a (h.toCalm.trans h') ha hj (hk hs)
  | returned h' hl hs => exact .returned (h.toCalm.trans h') hl (hk hs)

theorem Goes.after_steady {flow : Flow} (h : Steady m q) (hg : Goes sized i leap reach q flow m') :
    Goes sized i leap reach m flow m' :=
  Nat.zero_add reach ▸ hg.after h

theorem Fails.of_calm (h : Calm sized m m') : Fails sized m m' :=
  .mk m' m'.pc m'.stack m'.frames h (List.suffix_refl _) (List.suffix_refl _)

theorem Fails.after_calm (h : Calm sized m q) (hf : Fails sized q m') : Fails sized m m' := by
  cases hf with
  | mk q' pc stack frames h' hs hf => exact .mk q' pc stack frames (h.trans h') hs hf

theorem Goes.ne_called {flow : Flow} (h : Goes sized i leap reach m flow m') : flow ≠ .called := by
  intro hc
  rw [hc] at h
  cases h

theorem Goes.weaken {flow : Flow} (h : Goes True i leap reach m flow m') :
    Goes sized i leap reach m flow m' := by
  cases h with
  | next h hk => exact .next (.of_quiet h) hk
  | quit h hk => exact .quit (.of_quiet h) hk
  | branched b h hb h₀ h₁ hj hk => exact .branched b h hb h₀ h₁ hj hk
  | jumped a h ha hj hk => exact .jumped a h ha hj hk
  | returned h hl hk => exact .returned h hl hk

theorem Fails.weaken (h : Fails True m m') : Fails sized m m' := by
  cases h with
  | mk q pc stack frames h hs hf => exact .mk q pc stack frames (.of_quiet h) hs hf

end Compose

/-! ## 3. Computations that steer the machine -/

/-- Every result of the computation is one that `Goes` or `Fails` describes. How far it reaches down
the stack may depend on the story version. -/
abbrev Steers (i : Instruction) (leap : Option Word) (reach : UInt8 → Nat)
    (x : Action Machine Flow) : Prop :=
  Meets x (fun m flow m' => Goes True i leap (reach m.version) m flow m') (Fails True)

section Steers

variable {α : Type} {i : Instruction} {leap : Option Word} {reach : UInt8 → Nat}

/-- **Steady steps may come before what steers the machine.** -/
theorem Steers.bind {x : Action Machine α} {f : α → Action Machine Flow} (hx : Keeps Steady x)
    (hf : ∀ a, Steers i leap reach (f a)) : Steers i leap reach (x >>= f) :=
  Meets.bind hx hf (fun h hg => (h.version ▸ hg).after_steady h) (fun h => .after_calm h.toCalm)
    (fun h => .of_calm h.toCalm)

/-- A step may come before that spends some values; what follows reaches further down by these. -/
theorem Steers.bind_spends {n : Nat} {x : Action Machine α} {f : α → Action Machine Flow}
    (hx : Keeps (Spends True n) x) (hf : ∀ a, Steers i leap reach (f a)) :
    Steers i leap (fun version => n + reach version) (x >>= f) :=
  Meets.bind hx hf (fun h hg => (h.version ▸ hg).after h) (fun h => .after_calm h.toCalm)
    (fun h => .of_calm h.toCalm)

/-- How far a computation reaches may be told for each version apart. -/
theorem Steers.of_version {x : Action Machine Flow}
    (h : ∀ version, ∃ y, Steers i leap (fun _ => reach version) y ∧
      ∀ m : Machine, m.version = version → x m = y m) : Steers i leap reach x where
  ok {m flow m'} hx := by
    obtain ⟨y, hy, he⟩ := h m.version
    exact hy.ok (he m rfl ▸ hx)
  error {m e m'} hx := by
    obtain ⟨y, hy, he⟩ := h m.version
    exact hy.error (he m rfl ▸ hx)

theorem steers_next : Steers i leap reach (pure .next) where
  ok h := by cases h; exact .next (.refl _) (List.drop_suffix _ _)
  error h := by cases h

theorem steers_quit : Steers i leap reach (pure .quit) where
  ok h := by cases h; exact .quit (.refl _) (List.drop_suffix _ _)
  error h := by cases h

theorem steers_deliver (j : Instruction) (value : Word) : Steers i leap reach (deliver j value) :=
  Steers.bind (keeps_storeResult j.store value) fun _ => steers_next

theorem steers_ret (value : Word) : Steers i leap reach (ret value) where
  ok {m flow m'} h := by
    obtain ⟨rfl, hl⟩ := ret_eq_ok h
    exact .returned (.refl m) hl (List.drop_suffix _ _)
  error {m e m'} h := by
    obtain ⟨pc, stack, frames, hs, hf, rfl⟩ := ret_eq_error h
    exact .mk m pc stack frames (.refl m) hs hf

theorem steers_branch (condition : Bool) : Steers i leap reach (branch i.branch condition) := by
  unfold branch
  cases hb : i.branch with
  | none => exact steers_next
  | some b =>
      refine Meets.ite steers_next ?_
      by_cases h₀ : b.offset = 0
      · rw [if_pos h₀]
        exact steers_ret 0
      · rw [if_neg h₀]
        by_cases h₁ : b.offset = 1
        · rw [if_pos h₁]
          exact steers_ret 1
        · rw [if_neg h₁]
          constructor
          · intro m flow m' h
            obtain ⟨u, q, hj, h⟩ := bind_eq_ok.mp h
            cases h
            exact .branched b (.refl m) hb h₀ h₁ (jump_eq_ok.mp hj) (List.drop_suffix _ _)
          · intro m e m' h
            rcases bind_eq_error.mp h with h | ⟨u, q, -, h⟩
            · rw [jump_eq_error h]
              exact .of_calm (.refl m)
            · cases h

/-- A call is a result like any other if it is one of nothing, else it enters its routine or changes
nothing. -/
theorem meets_call (i : Instruction) (packed : Word) (rest : List Word) (store : Option UInt8) :
    Meets (call packed rest store)
      (fun m flow m' => Goes True i none 0 m flow m' ∨
        flow = .called ∧ Entered packed rest store m m')
      (Fails True) := by
  unfold call
  by_cases h₀ : packed = 0
  · rw [if_pos h₀]
    have h : Steers i none (fun _ => 0) (do storeResult store 0; return .next) :=
      Steers.bind (keeps_storeResult store 0) fun _ => steers_next
    exact ⟨fun hx => .inl (h.ok hx), h.error⟩
  · rw [if_neg h₀]
    constructor
    · intro m flow m' h
      rw [get_bind, lift_bind_eq_ok] at h
      obtain ⟨addr, ha, h⟩ := h
      obtain ⟨⟨locals, pc⟩, hs, h⟩ := lift_bind_eq_ok.mp h
      cases h
      exact .inr ⟨rfl, .mk addr locals pc ha hs⟩
    · intro m e m' h
      rw [get_bind, lift_bind_eq_error] at h
      rcases h with ⟨-, rfl⟩ | ⟨addr, -, h⟩
      · exact .of_calm (.refl m)
      · rcases lift_bind_eq_error.mp h with ⟨-, rfl⟩ | ⟨start, -, h⟩
        · exact .of_calm (.refl m)
        · cases h

end Steers

/-! ## 4. What was settled when the story was loaded -/

/-- The story version and the limit of the stack are the same. -/
structure SameMake (m m' : Machine) : Prop where
  version : m'.version = m.version
  stackLimit : m'.stackLimit = m.stackLimit

instance : IsPreorder Machine SameMake where
  refl _ := ⟨rfl, rfl⟩
  trans _ _ _ h h' := ⟨h'.version.trans h.version, h'.stackLimit.trans h.stackLimit⟩

theorem SameMake.trans {m q m' : Machine} (h : SameMake m q) (h' : SameMake q m') : SameMake m m' :=
  trans_of SameMake h h'

section SameMake

variable {sized : Prop} {m m' : Machine}

theorem Calm.sameMake (h : Calm sized m m') : SameMake m m' :=
  ⟨h.version, h.stackLimit⟩

theorem Spends.sameMake {n : Nat} (h : Spends sized n m m') : SameMake m m' :=
  h.toCalm.sameMake

theorem Jumped.sameMake {offset : Int} (h : Jumped offset m m') : SameMake m m' := by
  obtain ⟨pc, -, -, rfl⟩ := h
  exact ⟨rfl, rfl⟩

theorem Left.sameMake {value : Word} (h : Left value m m') : SameMake m m' := by
  cases h with
  | mk frame caller rest _ hs =>
      have hq := (keeps_storeResult frame.returnStore value).ok hs
      exact ⟨hq.version, hq.stackLimit⟩

theorem Entered.sameMake {packed : Word} {args : List Word} {store : Option UInt8}
    (h : Entered packed args store m m') : SameMake m m' := by
  cases h with
  | mk addr locals pc _ _ => exact ⟨rfl, rfl⟩

theorem Goes.sameMake {i : Instruction} {leap : Option Word} {reach : Nat} {flow : Flow}
    (h : Goes sized i leap reach m flow m') : SameMake m m' := by
  cases h with
  | next h => exact h.sameMake
  | quit h => exact h.sameMake
  | branched b h _ _ _ hj => exact h.sameMake.trans hj.sameMake
  | jumped a h _ hj => exact h.sameMake.trans hj.sameMake
  | returned h hl => exact h.sameMake.trans hl.sameMake

theorem Fails.sameMake (h : Fails sized m m') : SameMake m m' := by
  cases h with
  | mk q pc stack frames h _ _ => exact ⟨h.version, h.stackLimit⟩

end SameMake

end ZMachine.Machine
