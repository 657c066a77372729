import ZMachine.Machine.Control
import ZMachine.Proofs.Action

/-!
# What the running routine leaves alone

Between two control transfers the machine changes memory, values on the stack and the locals of the
running routine, and nothing else: the program counter stands where it stood, and the frames of all
callers are as they were.

* `Frame.shape`                : a frame up to the values of its locals.
* `Machine.Calm`               : two machines of which the second is the first after such changes;
  a condition says when memory has kept its size.
* `Machine.Quiet`              : the same, with memory of the same size.
* `Machine.Spends`             : a calm change that reaches only so many values down the stack.
* `Machine.Steady`             : a quiet change that leaves alone every value on the stack.
* `Machine.keeps_storeVar` …   : the machine's own operations are steady, but for those that take a
  value off the stack or replace its top.
* `Machine.Stored`, `Machine.Received` : where a value goes that is written to a variable, and where
  a result goes.
* `Machine.storeVar_eq_error`  : a write that fails changes nothing.
-/

namespace ZMachine

/-- A frame up to the values of its locals. -/
def Frame.shape (f : Frame) : Nat × Option UInt8 × Nat × Nat × Nat :=
  (f.returnPc, f.returnStore, f.locals.length, f.argCount, f.stackBase)

namespace Machine

open ZMachine.Action

/-! ## 1. Calm changes -/

/-- The second machine is in the same place of the same routine as the first, with the same
callers. `sized` says when memory is known to have kept its size. -/
structure Calm (sized : Prop) (m m' : Machine) : Prop where
  pc : m'.pc = m.pc
  version : m'.version = m.version
  stackLimit : m'.stackLimit = m.stackLimit
  callers : m'.frames.tail = m.frames.tail
  running : m'.frames.head?.map Frame.shape = m.frames.head?.map Frame.shape
  stack : m'.stack.length ≤ max m.stack.length m.stackLimit
  size : sized → m'.memory.size = m.memory.size

/-- A calm change that keeps the size of memory. -/
abbrev Quiet : Machine → Machine → Prop := Calm True

section Calm

variable {sized : Prop}

theorem Calm.refl (m : Machine) : Calm sized m m :=
  ⟨rfl, rfl, rfl, rfl, rfl, Nat.le_max_left _ _, fun _ => rfl⟩

theorem Calm.trans {m m' m'' : Machine} (h : Calm sized m m') (h' : Calm sized m' m'') :
    Calm sized m m'' where
  pc := h'.pc.trans h.pc
  version := h'.version.trans h.version
  stackLimit := h'.stackLimit.trans h.stackLimit
  callers := h'.callers.trans h.callers
  running := h'.running.trans h.running
  stack := by
    have h₁ := h.stack
    have h₂ := h'.stack
    rw [h.stackLimit] at h₂
    omega
  size hs := (h'.size hs).trans (h.size hs)

instance : IsPreorder Machine (Calm sized) where
  refl := .refl
  trans _ _ _ := .trans

theorem Calm.of_quiet {m m' : Machine} (h : Quiet m m') : Calm sized m m' :=
  { h with size := fun _ => h.size trivial }

/-- A calm change keeps the number of running routines. -/
theorem Calm.depth {m m' : Machine} (h : Calm sized m m') : m'.depth = m.depth := by
  have hc := h.callers
  have hr := h.running
  unfold Machine.depth
  cases hf : m.frames with
  | nil =>
      rw [hf] at hr
      cases hf' : m'.frames with
      | nil => rfl
      | cons g gs => rw [hf'] at hr; cases hr
  | cons f fs =>
      rw [hf] at hr hc
      cases hf' : m'.frames with
      | nil => rw [hf'] at hr; cases hr
      | cons g gs =>
          rw [hf'] at hc
          have hgs : gs = fs := hc
          rw [List.length_cons, List.length_cons, hgs]

/-- A calm change finds the running routine's frame with its callers below it, and leaves that
frame's shape. -/
theorem Calm.frames_cons {m m' : Machine} (h : Calm sized m m') {f : Frame} {fs : List Frame}
    (hf : m.frames = f :: fs) : ∃ g, m'.frames = g :: fs ∧ g.shape = f.shape := by
  have hc := h.callers
  have hr := h.running
  rw [hf] at hr hc
  cases hf' : m'.frames with
  | nil => rw [hf'] at hr; cases hr
  | cons g gs =>
      rw [hf'] at hr hc
      refine ⟨g, ?_, Option.some.inj hr⟩
      rw [show gs = fs from hc]

/-- A calm change keeps the shapes of all frames. -/
theorem Calm.shapes {m m' : Machine} (h : Calm sized m m') :
    m'.frames.map Frame.shape = m.frames.map Frame.shape := by
  cases hf : m.frames with
  | nil =>
      have hd := h.depth
      unfold Machine.depth at hd
      rw [hf, List.length_nil] at hd
      rw [List.eq_nil_of_length_eq_zero hd]
  | cons f fs =>
      obtain ⟨g, hg, hs⟩ := h.frames_cons hf
      rw [hg, List.map_cons, List.map_cons, hs]

end Calm

/-- A calm change that takes at most the topmost `n` values off the stack, or puts others in their
place. Those below are still there, with the new ones on top. -/
structure Spends (sized : Prop) (n : Nat) (m m' : Machine) : Prop extends Calm sized m m' where
  rest : m.stack.drop n <:+ m'.stack

/-- A quiet change that leaves alone every value on the stack. -/
abbrev Steady : Machine → Machine → Prop := Spends True 0

section Spends

variable {sized : Prop}

theorem drop_suffix_drop {l l' : List Word} (h : l <:+ l') (n : Nat) : l.drop n <:+ l'.drop n := by
  refine List.suffix_of_suffix_length_le ((List.drop_suffix n l).trans h) (List.drop_suffix n l') ?_
  have hle := h.length_le
  rw [List.length_drop, List.length_drop]
  omega

theorem Spends.refl (m : Machine) : Spends sized 0 m m :=
  ⟨.refl m, List.suffix_refl _⟩

theorem Spends.trans {n n' : Nat} {m q m' : Machine} (h : Spends sized n m q)
    (h' : Spends sized n' q m') : Spends sized (n + n') m m' where
  toCalm := h.toCalm.trans h'.toCalm
  rest := by
    rw [← List.drop_drop]
    exact (drop_suffix_drop h.rest n').trans h'.rest

instance : IsPreorder Machine (Spends sized 0) where
  refl := .refl
  trans _ _ _ h h' := h.trans h'

theorem Spends.mono {n n' : Nat} {m m' : Machine} (h : Spends sized n m m') (hn : n ≤ n') :
    Spends sized n' m m' where
  toCalm := h.toCalm
  rest := (List.drop_suffix_drop_left m.stack hn).trans h.rest

/-- One step after the other spends what both spend. -/
theorem spends_bind {α β : Type} {n n' : Nat} {x : Action Machine α} {f : α → Action Machine β}
    (hx : Keeps (Spends sized n) x) (hf : ∀ a, Keeps (Spends sized n') (f a)) :
    Keeps (Spends sized (n + n')) (x >>= f) where
  ok h := by
    obtain ⟨a, q, h₁, h₂⟩ := bind_eq_ok.mp h
    exact (hx.ok h₁).trans ((hf a).ok h₂)
  error h := by
    rcases bind_eq_error.mp h with h₁ | ⟨a, q, h₁, h₂⟩
    · exact (hx.error h₁).mono (Nat.le_add_right n n')
    · exact (hx.ok h₁).trans ((hf a).error h₂)

theorem Spends.of_steady {m m' : Machine} (h : Steady m m') : Spends sized 0 m m' :=
  ⟨.of_quiet h.toCalm, h.rest⟩

end Spends

/-! ## 2. Changes of one part -/

/-- A change of memory that keeps its size is steady. -/
theorem steady_memory (m : Machine) {memory : Memory} (h : memory.size = m.memory.size) :
    Steady m { m with memory } :=
  ⟨⟨rfl, rfl, rfl, rfl, rfl, Nat.le_max_left _ _, fun _ => h⟩, List.suffix_refl _⟩

/-- A change of the stack that keeps it within its limit is quiet. -/
theorem quiet_stack (m : Machine) {stack : List Word}
    (h : stack.length ≤ max m.stack.length m.stackLimit) : Quiet m { m with stack } :=
  ⟨rfl, rfl, rfl, rfl, rfl, h, fun _ => rfl⟩

/-- A value put on the stack leaves the others alone. -/
theorem steady_push (m : Machine) (value : Word) (h : m.stack.length < m.stackLimit) :
    Steady m { m with stack := value :: m.stack } := by
  refine ⟨quiet_stack m ?_, List.suffix_cons _ _⟩
  rw [List.length_cons]
  omega

/-- A change of the running routine's locals that keeps their number is steady. -/
theorem steady_locals (m : Machine) {f : Frame} {fs : List Frame} {locals : List Word}
    (hf : m.frames = f :: fs) (h : locals.length = f.locals.length) :
    Steady m { m with frames := { f with locals } :: fs } := by
  refine ⟨⟨rfl, rfl, rfl, ?_, ?_, Nat.le_max_left _ _, fun _ => rfl⟩, List.suffix_refl _⟩
  · rw [hf]
    rfl
  · rw [hf]
    simp only [List.head?_cons, Option.map_some, Frame.shape, h]

/-! ## 3. Reading operands -/

/-- Values have been taken off the stack, and nothing else has happened. -/
def Popped (m m' : Machine) : Prop :=
  ∃ n, m' = { m with stack := m.stack.drop n }

theorem Popped.refl (m : Machine) : Popped m m :=
  ⟨0, rfl⟩

theorem Popped.trans {m m' m'' : Machine} (h : Popped m m') (h' : Popped m' m'') :
    Popped m m'' := by
  obtain ⟨n, rfl⟩ := h
  obtain ⟨n', rfl⟩ := h'
  refine ⟨n + n', ?_⟩
  simp only [List.drop_drop]

instance : IsPreorder Machine Popped where
  refl := .refl
  trans _ _ _ := .trans

theorem Popped.memory {m m' : Machine} (h : Popped m m') : m'.memory = m.memory := by
  obtain ⟨n, rfl⟩ := h
  rfl

theorem Popped.quiet {m m' : Machine} (h : Popped m m') : Quiet m m' := by
  obtain ⟨n, rfl⟩ := h
  refine quiet_stack m ?_
  rw [List.length_drop]
  omega

theorem pop_eq_ok {m m' : Machine} {value : Word} :
    pop m = .ok value m' ↔ ∃ rest, m.stack = value :: rest ∧ m' = { m with stack := rest } := by
  unfold pop
  rw [get_bind]
  cases hs : m.stack with
  | nil =>
      constructor
      · intro h
        cases h
      · intro h
        obtain ⟨rest, h, -⟩ := h
        cases h
  | cons w ws =>
      constructor
      · intro h
        cases h
        exact ⟨ws, rfl, rfl⟩
      · intro h
        obtain ⟨rest, h, rfl⟩ := h
        cases h
        rfl

theorem keeps_pop : Keeps Popped pop where
  ok h := by
    obtain ⟨rest, hs, rfl⟩ := pop_eq_ok.mp h
    exact ⟨1, by rw [hs]; rfl⟩
  error {m e m'} h := by
    unfold pop at h
    rw [get_bind] at h
    cases hs : m.stack with
    | nil => rw [hs] at h; cases h; exact .refl m
    | cons w ws => rw [hs] at h; cases h

/-- Taking a value off the stack spends one. -/
theorem spends_pop : Keeps (Spends True 1) pop where
  ok {m value m'} h := by
    obtain ⟨rest, hs, rfl⟩ := pop_eq_ok.mp h
    exact ⟨(keeps_pop.ok h).quiet, by rw [hs]; exact List.suffix_refl _⟩
  error {m e m'} h := by
    unfold pop at h
    rw [get_bind] at h
    cases hs : m.stack with
    | nil => rw [hs] at h; cases h; exact ⟨.refl m, List.drop_suffix _ _⟩
    | cons w ws => rw [hs] at h; cases h

section Reading

-- What only reads keeps every relation that every machine has to itself.
variable {R : Machine → Machine → Prop} [IsPreorder Machine R]

theorem keeps_peek : Keeps R peek := by
  refine Keeps.bind keeps_get fun m => ?_
  split
  · exact keeps_throw _
  · exact keeps_pure _

theorem keeps_readGlobal (var : Word) : Keeps R (readGlobal var) := by
  refine Keeps.bind keeps_get fun m => ?_
  exact Keeps.bind (keeps_lift _) fun addr => keeps_lift _

theorem keeps_readLocal (var : Word) : Keeps R (readLocal var) := by
  refine Keeps.bind keeps_get fun m => ?_
  refine Keeps.bind (keeps_lift _) fun slot => ?_
  split
  · exact keeps_pure _
  · exact keeps_throw _

/-- A variable named by an operand is read without taking anything off the stack. -/
theorem keeps_loadIndirect (var : Word) : Keeps R (loadIndirect var) := by
  unfold loadIndirect
  by_cases h₀ : var = 0
  · rw [if_pos h₀]
    exact keeps_peek
  · rw [if_neg h₀, loadVar, if_neg h₀]
    exact Meets.ite (keeps_readLocal var) (Meets.ite (keeps_readGlobal var) (keeps_throw _))

theorem keeps_operand (i : Instruction) (args : List Word) (index : Nat) :
    Keeps R (operand i args index) := by
  unfold operand
  split
  · exact keeps_pure _
  · exact Keeps.bind keeps_get fun m => keeps_throw _

theorem keeps_furtherOperands (args : List Word) : Keeps R (furtherOperands args) := by
  unfold furtherOperands
  split
  · exact keeps_pure _
  · exact keeps_throw _

theorem keeps_currentFrame : Keeps R currentFrame := by
  refine Keeps.bind keeps_get fun m => ?_
  split
  · exact keeps_throw _
  · exact keeps_pure _

end Reading

theorem keeps_loadVar (var : Word) : Keeps Popped (loadVar var) :=
  Meets.ite keeps_pop <|
    Meets.ite (keeps_readLocal var) <| Meets.ite (keeps_readGlobal var) (keeps_throw _)

theorem keeps_resolveOperand (o : Operand) : Keeps Popped (resolveOperand o) := by
  unfold resolveOperand
  split
  · exact keeps_loadVar o.raw
  · exact keeps_pure _
  · exact keeps_pure _

/-- **Reading operands takes values off the stack and does nothing else.** -/
theorem keeps_resolve : ∀ operands : List Operand, Keeps Popped (resolve operands)
  | [] => keeps_pure _
  | o :: rest =>
      Keeps.bind (keeps_resolveOperand o) fun _ =>
        Keeps.bind (keeps_resolve rest) fun _ => keeps_pure _

/-! ## 4. Writing -/

theorem check_eq_ok {memory : Memory} {addr width : Nat} {u : Unit} :
    memory.check addr width = .ok u ↔ addr + width ≤ memory.size := by
  unfold Memory.check
  split
  · rename_i h
    exact ⟨fun _ => h, fun _ => rfl⟩
  · rename_i h
    constructor
    · intro h'
      cases h'
    · intro h'
      exact absurd h' h

theorem update_eq_ok {addr width : Nat} {change : Memory → Memory} {m m' : Machine} {u : Unit} :
    update addr width change m = .ok u m' ↔
      addr + width ≤ m.memory.size ∧ m' = { m with memory := change m.memory } := by
  unfold update
  rw [get_bind, lift_bind_eq_ok]
  constructor
  · intro h
    obtain ⟨u', hc, h⟩ := h
    cases h
    exact ⟨check_eq_ok.mp hc, rfl⟩
  · intro h
    obtain ⟨hc, rfl⟩ := h
    exact ⟨(), check_eq_ok.mpr hc, rfl⟩

theorem update_eq_error {addr width : Nat} {change : Memory → Memory} {m m' : Machine} {e : Fault}
    (h : update addr width change m = .error e m') : m' = m := by
  unfold update at h
  rw [get_bind, lift_bind_eq_error] at h
  rcases h with ⟨-, h⟩ | ⟨u, -, h⟩
  · exact h.symm
  · cases h

theorem update_of_lt {addr width : Nat} {change : Memory → Memory} {m : Machine}
    (h : m.memory.size < addr + width) :
    update addr width change m = .error (.addressOutOfRange addr m.memory.size) m := by
  have hc : m.memory.check addr width = .error (.addressOutOfRange addr m.memory.size) :=
    if_neg (Nat.not_le_of_lt h)
  unfold update
  rw [get_bind, lift_bind_eq_error]
  exact .inl ⟨hc, rfl⟩

theorem keeps_update {addr width : Nat} {change : Memory → Memory}
    (hc : ∀ memory : Memory, (change memory).size = memory.size) :
    Keeps Steady (update addr width change) where
  ok {m u m'} h := by
    obtain ⟨-, rfl⟩ := update_eq_ok.mp h
    exact steady_memory m (hc _)
  error {m e m'} h := by
    rw [update_eq_error h]
    exact .refl m

theorem keeps_writeByte (addr : Nat) (value : UInt8) : Keeps Steady (writeByte addr value) :=
  keeps_update fun _ => Memory.size_setByte ..

theorem keeps_writeWord (addr : Nat) (value : Word) : Keeps Steady (writeWord addr value) :=
  keeps_update fun _ => Memory.size_setWord ..

theorem keeps_writeSlice (addr : Nat) (data : List UInt8) : Keeps Steady (writeSlice addr data) :=
  keeps_update fun _ => Memory.size_overwrite ..

theorem push_eq_ok {value : Word} {m m' : Machine} {u : Unit} :
    push value m = .ok u m' ↔
      m.stack.length < m.stackLimit ∧ m' = { m with stack := value :: m.stack } := by
  unfold push
  rw [get_bind]
  by_cases h : m.stackLimit ≤ m.stack.length
  · rw [if_pos h]
    constructor
    · intro h'
      cases h'
    · intro h
      obtain ⟨h', -⟩ := h
      omega
  · rw [if_neg h]
    constructor
    · intro h'
      cases h'
      exact ⟨by omega, rfl⟩
    · intro h
      obtain ⟨-, rfl⟩ := h
      rfl

theorem push_eq_error {value : Word} {m m' : Machine} {e : Fault}
    (h : push value m = .error e m') : m' = m := by
  unfold push at h
  rw [get_bind] at h
  split at h
  · cases h
    rfl
  · cases h

theorem keeps_push (value : Word) : Keeps Steady (push value) where
  ok {m u m'} h := by
    obtain ⟨hlt, rfl⟩ := push_eq_ok.mp h
    exact steady_push m value hlt
  error {m e m'} h := by
    rw [push_eq_error h]
    exact .refl m

/-- Putting a value in the place of the top one spends that. -/
theorem spends_replaceTop (value : Word) : Keeps (Spends True 1) (replaceTop value) where
  ok {m u m'} h := by
    unfold replaceTop at h
    rw [get_bind] at h
    cases hs : m.stack with
    | nil => rw [hs] at h; cases h
    | cons w ws =>
        rw [hs] at h
        cases h
        refine ⟨quiet_stack m ?_, by rw [hs]; exact List.suffix_cons _ _⟩
        rw [hs, List.length_cons, List.length_cons]
        exact Nat.le_max_left _ _
  error {m e m'} h := by
    unfold replaceTop at h
    rw [get_bind] at h
    cases hs : m.stack with
    | nil => rw [hs] at h; cases h; exact ⟨.refl m, List.drop_suffix _ _⟩
    | cons w ws => rw [hs] at h; cases h

theorem localSlot_cons (f : Frame) (fs : List Frame) {var : Word} (h₀ : var ≠ 0) :
    localSlot (f :: fs) var =
      if var.toNat - 1 < f.locals.length then .ok (var.toNat - 1)
      else .error (.noSuchLocal var.toUInt8 f.locals.length) :=
  if_neg h₀

theorem localSlot_eq_ok {frames : List Frame} {var : Word} {slot : Nat} (h₀ : var ≠ 0) :
    localSlot frames var = .ok slot ↔
      ∃ f fs, frames = f :: fs ∧ var.toNat - 1 < f.locals.length ∧ slot = var.toNat - 1 := by
  cases frames with
  | nil =>
      constructor
      · intro h
        simp [localSlot, h₀] at h
      · intro h
        obtain ⟨f, fs, h, -⟩ := h
        cases h
  | cons f fs =>
      rw [localSlot_cons f fs h₀]
      by_cases h : var.toNat - 1 < f.locals.length
      · rw [if_pos h]
        constructor
        · intro h'
          cases h'
          exact ⟨f, fs, rfl, h, rfl⟩
        · intro h
          obtain ⟨g, gs, hg, -, rfl⟩ := h
          rfl
      · rw [if_neg h]
        constructor
        · intro h'
          cases h'
        · intro h
          obtain ⟨g, gs, hg, h', -⟩ := h
          cases hg
          exact absurd h' h

theorem writeLocal_eq_ok {var value : Word} {m m' : Machine} {u : Unit} (h₀ : var ≠ 0) :
    writeLocal var value m = .ok u m' ↔
      ∃ f fs, m.frames = f :: fs ∧ var.toNat - 1 < f.locals.length ∧
        m' = { m with
               frames := { f with locals := f.locals.set (var.toNat - 1) value } :: fs } := by
  unfold writeLocal
  rw [get_bind, lift_bind_eq_ok]
  constructor
  · intro h
    obtain ⟨slot, hslot, h⟩ := h
    obtain ⟨f, fs, hf, hlt, rfl⟩ := (localSlot_eq_ok h₀).mp hslot
    rw [hf] at h
    dsimp only at h
    rw [if_pos hlt] at h
    cases h
    exact ⟨f, fs, hf, hlt, rfl⟩
  · intro h
    obtain ⟨f, fs, hf, hlt, rfl⟩ := h
    refine ⟨var.toNat - 1, (localSlot_eq_ok h₀).mpr ⟨f, fs, hf, hlt, rfl⟩, ?_⟩
    rw [hf]
    dsimp only
    rw [if_pos hlt]
    rfl

theorem writeLocal_eq_error {var value : Word} {m m' : Machine} {e : Fault}
    (h : writeLocal var value m = .error e m') : m' = m := by
  unfold writeLocal at h
  rw [get_bind, lift_bind_eq_error] at h
  rcases h with ⟨-, h⟩ | ⟨slot, -, h⟩
  · exact h.symm
  · cases hf : m.frames with
    | nil => rw [hf] at h; cases h; rfl
    | cons f fs =>
        rw [hf] at h
        dsimp only at h
        split at h
        · cases h
        · cases h
          rfl

theorem writeGlobal_eq_ok {var value : Word} {m m' : Machine} {u : Unit} :
    writeGlobal var value m = .ok u m' ↔
      ∃ addr, globalAddr m.memory var = .ok addr ∧ addr + 2 ≤ m.memory.size ∧
        m' = { m with memory := m.memory.setWord addr value } := by
  unfold writeGlobal
  rw [get_bind, lift_bind_eq_ok]
  exact exists_congr fun addr => and_congr_right fun _ => update_eq_ok

theorem writeGlobal_eq_error {var value : Word} {m m' : Machine} {e : Fault}
    (h : writeGlobal var value m = .error e m') : m' = m := by
  unfold writeGlobal at h
  rw [get_bind, lift_bind_eq_error] at h
  rcases h with ⟨-, h⟩ | ⟨addr, -, h⟩
  · exact h.symm
  · exact update_eq_error h

/-- Where a value goes that is written to a variable: on the stack, to a local of the running
routine, or to a global in memory. -/
inductive Stored (var value : Word) (m : Machine) : Machine → Prop where
  | pushed (hvar : var = 0) (h : m.stack.length < m.stackLimit) :
      Stored var value m { m with stack := value :: m.stack }
  | inLocal (f : Frame) (fs : List Frame) (hvar : var ≠ 0) (hlt : var < 0x10)
      (hf : m.frames = f :: fs) (h : var.toNat - 1 < f.locals.length) :
      Stored var value m
        { m with frames := { f with locals := f.locals.set (var.toNat - 1) value } :: fs }
  | inGlobal (addr : Nat) (hvar : ¬ var < 0x10) (hle : var ≤ 0xff)
      (ha : globalAddr m.memory var = .ok addr) (h : addr + 2 ≤ m.memory.size) :
      Stored var value m { m with memory := m.memory.setWord addr value }

/-- **A write to a variable that succeeds puts the value where the variable lives.** -/
theorem storeVar_eq_ok {var value : Word} {m m' : Machine} {u : Unit} :
    storeVar var value m = .ok u m' ↔ Stored var value m m' := by
  unfold storeVar
  by_cases h₀ : var = 0
  · rw [if_pos h₀, push_eq_ok]
    constructor
    · intro h
      obtain ⟨h, rfl⟩ := h
      exact .pushed h₀ h
    · intro h
      cases h with
      | pushed _ h => exact ⟨h, rfl⟩
      | inLocal f fs hvar => exact absurd h₀ hvar
      | inGlobal addr hvar => exact absurd (by rw [h₀]; decide) hvar
  · rw [if_neg h₀]
    by_cases h₁ : var < 0x10
    · rw [if_pos h₁, writeLocal_eq_ok h₀]
      constructor
      · intro h
        obtain ⟨f, fs, hf, h, rfl⟩ := h
        exact .inLocal f fs h₀ h₁ hf h
      · intro h
        cases h with
        | pushed hvar => exact absurd hvar h₀
        | inLocal f fs _ _ hf h => exact ⟨f, fs, hf, h, rfl⟩
        | inGlobal addr hvar => exact absurd h₁ hvar
    · rw [if_neg h₁]
      by_cases h₂ : var ≤ 0xff
      · rw [if_pos h₂, writeGlobal_eq_ok]
        constructor
        · intro h
          obtain ⟨addr, ha, h, rfl⟩ := h
          exact .inGlobal addr h₁ h₂ ha h
        · intro h
          cases h with
          | pushed hvar => exact absurd hvar h₀
          | inLocal f fs _ hlt => exact absurd hlt h₁
          | inGlobal addr _ _ ha h => exact ⟨addr, ha, h, rfl⟩
      · rw [if_neg h₂]
        constructor
        · intro h
          cases h
        · intro h
          cases h with
          | pushed hvar => exact absurd hvar h₀
          | inLocal f fs _ hlt => exact absurd hlt h₁
          | inGlobal addr _ hle => exact absurd hle h₂

/-- A write to a variable that fails changes nothing. -/
theorem storeVar_eq_error {var value : Word} {m m' : Machine} {e : Fault}
    (h : storeVar var value m = .error e m') : m' = m := by
  unfold storeVar at h
  split at h
  · exact push_eq_error h
  · split at h
    · exact writeLocal_eq_error h
    · split at h
      · exact writeGlobal_eq_error h
      · cases h
        rfl

theorem Stored.steady {var value : Word} {m m' : Machine} (h : Stored var value m m') :
    Steady m m' := by
  cases h with
  | pushed _ h => exact steady_push m value h
  | inLocal f fs _ _ hf _ => exact steady_locals m hf (List.length_set ..)
  | inGlobal addr _ _ _ _ => exact steady_memory m (Memory.size_setWord ..)

theorem keeps_storeVar (var value : Word) : Keeps Steady (storeVar var value) where
  ok h := (storeVar_eq_ok.mp h).steady
  error {m e m'} h := by
    rw [storeVar_eq_error h]
    exact .refl m

/-- How many values a change of the variable in place spends: the top of the stack, if it is
that. -/
def inPlace (var : Word) : Nat :=
  if var = 0 then 1 else 0

theorem spends_storeIndirect (var value : Word) :
    Keeps (Spends True (inPlace var)) (storeIndirect var value) := by
  unfold storeIndirect inPlace
  by_cases h₀ : var = 0
  · rw [if_pos h₀, if_pos h₀]
    exact spends_replaceTop value
  · rw [if_neg h₀, if_neg h₀]
    exact keeps_storeVar var value

/-- Where a result goes: to the variable that wants it, or nowhere if none does. -/
inductive Received (value : Word) (m : Machine) : Option UInt8 → Machine → Prop where
  | nowhere : Received value m none m
  | stored (var : UInt8) {m' : Machine} (h : Stored var.toUInt16 value m m') :
      Received value m (some var) m'

/-- **A result that can be delivered goes where it is wanted.** -/
theorem storeResult_eq_ok {store : Option UInt8} {value : Word} {m m' : Machine} {u : Unit} :
    storeResult store value m = .ok u m' ↔ Received value m store m' := by
  unfold storeResult
  cases store with
  | none =>
      constructor
      · intro h
        cases h
        exact .nowhere
      · intro h
        cases h
        rfl
  | some var =>
      constructor
      · intro h
        exact .stored var (storeVar_eq_ok.mp h)
      · intro h
        cases h with
        | stored _ h => exact storeVar_eq_ok.mpr h

theorem keeps_storeResult (store : Option UInt8) (value : Word) :
    Keeps Steady (storeResult store value) := by
  unfold storeResult
  split
  · exact keeps_pure _
  · exact keeps_storeVar _ _

theorem storeResult_eq_error {store : Option UInt8} {value : Word} {m m' : Machine} {e : Fault}
    (h : storeResult store value m = .error e m') : m' = m := by
  unfold storeResult at h
  split at h
  · cases h
  · exact storeVar_eq_error h

end Machine

end ZMachine
