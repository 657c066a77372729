import ZMachine.Proofs.Machine.Quiet
import ZMachine.Proofs.Memory

/-!
# Variables as cells

The stack, the locals of the running routine and the globals in memory share one row of numbers.
Each number names a cell of its own: what is written there is read back, every other variable reads
as it did, and nothing outside the cell is touched. The one exception is a global that lies on the
word of the header that says where the globals are.

* `Action.answer`               : what a computation answers, without where it leads.
* `Machine.GlobalAt`            : where a global lives.
* `Machine.HasCell`, `Machine.Clear` : variables that can be written, and those that do not lie on
  the header's word.
* `Machine.OnlyCell`            : two machines that differ in one cell at most.
* `Machine.answer_loadVar_of_onlyCell` : a write to one cell is not seen in another.
* `Machine.CellLaws`            : the laws of reading and writing.
* `Machine.variables_are_cells` : they hold, whether variable 0 is pushed and popped or stays in
  place.
-/

namespace ZMachine

/-- What a computation answers, value or fault, without the state it ends in. -/
def Action.answer {σ α : Type} (x : Action σ α) (s : σ) : Except Fault α :=
  match x s with
  | .ok a _ => .ok a
  | .error e _ => .error e

namespace Action

variable {σ α β : Type}

theorem answer_of_ok {x : Action σ α} {s t : σ} {a : α} (h : x s = .ok a t) :
    x.answer s = .ok a := by
  unfold answer
  rw [h]

theorem answer_get_bind (f : σ → Action σ β) (s : σ) : (get >>= f).answer s = (f s).answer s :=
  rfl

theorem answer_lift (x : Except Fault α) (s : σ) : (liftM x : Action σ α).answer s = x := by
  cases x <;> rfl

/-- What a sequence answers that starts without the state. -/
theorem answer_lift_bind (x : Except Fault α) (f : α → Action σ β) (s : σ) :
    ((liftM x : Action σ α) >>= f).answer s = x >>= fun a => (f a).answer s := by
  cases x <;> rfl

end Action

namespace Machine

open ZMachine.Action

variable {var value k : Word} {m m' : Machine}

/-! ## 1. Cells -/

/-- The global lives in the two bytes at the address: the globals are words in a row, from number
`0x10` on, where the header says now. -/
def GlobalAt (memory : Memory) (var : Word) (addr : Nat) : Prop :=
  0x10 ≤ var.toNat ∧ var.toNat ≤ 0xff ∧
    ∃ table, Header.globalVariables memory = .ok table ∧
      addr = table.toNat + 2 * (var.toNat - 0x10)

/-- The variable can be written: there is room on the stack, or the running routine has the local,
or the global lies in memory. -/
def HasCell (room : Prop) (m : Machine) (var : Word) : Prop :=
  var = 0 ∧ room ∨
    (1 ≤ var.toNat ∧ var.toNat ≤ 15 ∧ ∃ f fs, m.frames = f :: fs ∧ var.toNat ≤ f.locals.length) ∨
    ∃ addr, GlobalAt m.memory var addr ∧ addr + 1 < m.memory.size

/-- The variable does not lie on the word of the header that says where the globals are. -/
def Clear (m : Machine) (var : Word) : Prop :=
  ∀ addr, GlobalAt m.memory var addr → addr + 1 < 0x0c ∨ 0x0d < addr

/-- The second machine is the first but for the cell of one variable: the stack, one local of the
running routine, or two bytes of memory. -/
inductive OnlyCell (var : Word) (m : Machine) : Machine → Prop where
  | stack (values : List Word) (hvar : var = 0) : OnlyCell var m { m with stack := values }
  | slot (f : Frame) (fs : List Frame) (locals : List Word) (hpos : 1 ≤ var.toNat)
      (hle : var.toNat ≤ 15) (hf : m.frames = f :: fs) (hlength : locals.length = f.locals.length)
      (hothers : ∀ i, i + 1 ≠ var.toNat → locals[i]? = f.locals[i]?) :
      OnlyCell var m { m with frames := { f with locals } :: fs }
  | word (addr : Nat) (memory : Memory) (haddr : GlobalAt m.memory var addr)
      (hsize : memory.size = m.memory.size)
      (hothers : ∀ a, a ≠ addr → a ≠ addr + 1 → memory.bytes[a]? = m.memory.bytes[a]?) :
      OnlyCell var m { m with memory }

theorem toNat_pos_of_ne (h : var ≠ 0) : 1 ≤ var.toNat := by
  refine Nat.one_le_iff_ne_zero.mpr fun h₀ => h ?_
  exact UInt16.toNat_inj.mp h₀

theorem lt_sixteen_iff : var < 0x10 ↔ var.toNat ≤ 15 :=
  UInt16.lt_iff_toNat_lt.trans Nat.lt_succ_iff

/-- **The address of a global is where it lives.** -/
theorem globalAddr_eq_ok {memory : Memory} {addr : Nat} :
    globalAddr memory var = .ok addr ↔ GlobalAt memory var addr := by
  have hrange : (0x10 ≤ var ∧ var ≤ 0xff) ↔ (0x10 ≤ var.toNat ∧ var.toNat ≤ 0xff) :=
    and_congr UInt16.le_iff_toNat_le UInt16.le_iff_toNat_le
  unfold globalAddr GlobalAt
  by_cases h : 0x10 ≤ var ∧ var ≤ 0xff
  · rw [if_pos h, except_bind_eq_ok]
    constructor
    · intro hb
      obtain ⟨table, ht, haddr⟩ := hb
      cases haddr
      exact ⟨(hrange.mp h).1, (hrange.mp h).2, table, ht, by rw [Nat.mul_comm]⟩
    · intro hb
      obtain ⟨-, -, table, ht, rfl⟩ := hb
      exact ⟨table, ht, by rw [Nat.mul_comm]; rfl⟩
  · rw [if_neg h]
    constructor
    · intro hb
      cases hb
    · intro hb
      exact absurd (hrange.mpr ⟨hb.1, hb.2.1⟩) h

/-! ## 2. Reading -/

/-- The value of the running routine's local in a slot. -/
theorem answer_readLocal (var : Word) (m : Machine) :
    (readLocal var).answer m = (do
      let slot ← localSlot m.frames var
      match m.frames.head?.bind (·.locals[slot]?) with
      | some value => .ok value
      | none => .error (.defect .localSlot)) := by
  unfold readLocal
  rw [answer_get_bind, answer_lift_bind]
  refine except_bind_congr fun slot _ => ?_
  cases m.frames.head?.bind (·.locals[slot]?) with
  | none => rfl
  | some value => rfl

/-- The word at a global's address. -/
theorem answer_readGlobal (var : Word) (m : Machine) :
    (readGlobal var).answer m = (do
      let addr ← globalAddr m.memory var
      m.memory.readWord addr) := by
  unfold readGlobal
  rw [answer_get_bind, answer_lift_bind]
  exact except_bind_congr fun addr _ => answer_lift _ m

/-- A variable other than the stack reads the same on two machines if it does as the local or the
global that it is. -/
theorem answer_loadVar_congr (hk : k ≠ 0)
    (hlocal : k < 0x10 → (readLocal k).answer m' = (readLocal k).answer m)
    (hglobal : (readGlobal k).answer m' = (readGlobal k).answer m) :
    (loadVar k).answer m' = (loadVar k).answer m := by
  unfold loadVar
  rw [if_neg hk]
  by_cases h₁ : k < 0x10
  · rw [if_pos h₁]
    exact hlocal h₁
  · rw [if_neg h₁]
    by_cases h₂ : k ≤ 0xff
    · rw [if_pos h₂]
      exact hglobal
    · rw [if_neg h₂]
      rfl

theorem answer_readLocal_of_frames (h : m'.frames = m.frames) :
    (readLocal k).answer m' = (readLocal k).answer m := by
  rw [answer_readLocal, answer_readLocal, h]

theorem answer_readGlobal_of_memory (h : m'.memory = m.memory) :
    (readGlobal k).answer m' = (readGlobal k).answer m := by
  rw [answer_readGlobal, answer_readGlobal, h]

/-- A local reads the same where the running routine has as many locals and this one as it was. -/
theorem answer_readLocal_of_slot {f f' : Frame} {fs : List Frame} (hk : k ≠ 0)
    (hf : m.frames = f :: fs) (hf' : m'.frames = f' :: fs)
    (hlength : f'.locals.length = f.locals.length)
    (hslot : f'.locals[k.toNat - 1]? = f.locals[k.toNat - 1]?) :
    (readLocal k).answer m' = (readLocal k).answer m := by
  rw [answer_readLocal, answer_readLocal, hf, hf', localSlot_cons f fs hk, localSlot_cons f' fs hk,
    hlength]
  by_cases h : k.toNat - 1 < f.locals.length
  · rw [if_pos h]
    show (match f'.locals[k.toNat - 1]? with
      | some value => Except.ok value
      | none => Except.error (Fault.defect .localSlot)) = match f.locals[k.toNat - 1]? with
      | some value => Except.ok value
      | none => Except.error (Fault.defect .localSlot)
    rw [hslot]
  · rw [if_neg h]
    rfl

/-- A global reads the same where the header names the same place and the word there is as it
was. -/
theorem answer_readGlobal_of_word
    (htable : Header.globalVariables m'.memory = Header.globalVariables m.memory)
    (hword : ∀ addr, GlobalAt m.memory k addr → m'.memory.readWord addr = m.memory.readWord addr) :
    (readGlobal k).answer m' = (readGlobal k).answer m := by
  have haddr : globalAddr m'.memory k = globalAddr m.memory k := by
    unfold globalAddr
    rw [htable]
  rw [answer_readGlobal, answer_readGlobal, haddr]
  exact except_bind_congr fun addr ha => hword addr (globalAddr_eq_ok.mp ha)

/-! ## 3. One cell and the others -/

/-- A word reads the same where neither of its bytes has changed. -/
theorem readWord_of_others {memory memory' : Memory} {addr a : Nat}
    (hsize : memory'.size = memory.size)
    (hothers : ∀ b, b ≠ addr → b ≠ addr + 1 → memory'.bytes[b]? = memory.bytes[b]?)
    (hfar : a + 1 < addr ∨ addr + 1 < a) : memory'.readWord a = memory.readWord a :=
  Memory.readWord_congr hsize (hothers a (by omega) (by omega))
    (hothers (a + 1) (by omega) (by omega))

/-- Two globals do not overlap. -/
theorem GlobalAt.far {memory : Memory} {addr a : Nat} (h : GlobalAt memory var addr)
    (h' : GlobalAt memory k a) (hne : k ≠ var) : a + 1 < addr ∨ addr + 1 < a := by
  obtain ⟨hge, -, table, ht, rfl⟩ := h
  obtain ⟨hge', -, table', ht', rfl⟩ := h'
  cases ht.symm.trans ht'
  have hnat : k.toNat ≠ var.toNat := fun h => hne (UInt16.toNat_inj.mp h)
  omega

/-- **A write to one cell is not seen in another.** -/
theorem answer_loadVar_of_onlyCell (h : OnlyCell var m m') (hclear : Clear m var) (hk : k ≠ 0)
    (hne : k ≠ var) : (loadVar k).answer m' = (loadVar k).answer m := by
  have hnat : k.toNat ≠ var.toNat := fun h => hne (UInt16.toNat_inj.mp h)
  cases h with
  | stack values hvar =>
      exact answer_loadVar_congr hk (fun _ => answer_readLocal_of_frames rfl)
        (answer_readGlobal_of_memory rfl)
  | slot f fs locals hpos hle hf hlength hothers =>
      have hpos' := toNat_pos_of_ne hk
      refine answer_loadVar_congr hk (fun _ => ?_) (answer_readGlobal_of_memory rfl)
      exact answer_readLocal_of_slot hk hf rfl hlength (hothers _ (by omega))
  | word addr memory haddr hsize hothers =>
      refine answer_loadVar_congr hk (fun _ => answer_readLocal_of_frames rfl) ?_
      -- The header's word stands clear of the cell, so that the table is where it was.
      have hfar := hclear addr haddr
      refine answer_readGlobal_of_word ?_ fun a ha => ?_
      · exact readWord_of_others hsize hothers (by omega)
      · exact readWord_of_others hsize hothers (haddr.far ha hne)

/-! ## 4. Writing -/

theorem onlyCell_of_stored (h : Stored var value m m') : OnlyCell var m m' := by
  cases h with
  | pushed hvar h => exact .stack _ hvar
  | inLocal f fs hvar hlt hf h =>
      have hpos := toNat_pos_of_ne hvar
      refine .slot f fs _ hpos (lt_sixteen_iff.mp hlt) hf (List.length_set ..) fun i hi => ?_
      exact List.getElem?_set_ne (by omega)
  | inGlobal addr hvar hle ha h =>
      refine .word addr _ (globalAddr_eq_ok.mp ha) (Memory.size_setWord ..) fun a h₀ h₁ => ?_
      exact Memory.getElem?_setWord_of_ne h₀ h₁

/-- What is written to a variable is read back. -/
theorem answer_loadVar_of_stored (h : Stored var value m m') (hclear : Clear m var) :
    (loadVar var).answer m' = .ok value := by
  unfold loadVar
  cases h with
  | pushed hvar h =>
      rw [if_pos hvar]
      exact answer_of_ok (pop_eq_ok.mpr ⟨m.stack, rfl, rfl⟩)
  | inLocal f fs hvar hlt hf h =>
      rw [if_neg hvar, if_pos hlt, answer_readLocal]
      have hslot : localSlot ({ f with locals := f.locals.set (var.toNat - 1) value } :: fs) var =
          .ok (var.toNat - 1) := by
        rw [localSlot_cons _ _ hvar, List.length_set, if_pos h]
      rw [hslot]
      show (match (f.locals.set (var.toNat - 1) value)[var.toNat - 1]? with
        | some value => Except.ok value
        | none => Except.error (Fault.defect .localSlot)) = _
      rw [List.getElem?_set_self h]
  | inGlobal addr hvar hle ha h =>
      have hvar₀ : var ≠ 0 := fun h₀ => hvar (by rw [h₀]; decide)
      have hfar := hclear addr (globalAddr_eq_ok.mp ha)
      have htable : Header.globalVariables (m.memory.setWord addr value) =
          Header.globalVariables m.memory :=
        Memory.readWord_setWord_of_ne (by omega) (by omega) (by omega)
      have haddr : globalAddr (m.memory.setWord addr value) var = .ok addr := by
        rw [← ha]
        unfold globalAddr
        rw [htable]
      rw [if_neg hvar₀, if_neg hvar, if_pos hle, answer_readGlobal]
      show (globalAddr (m.memory.setWord addr value) var >>= _) = _
      rw [haddr]
      exact Memory.readWord_setWord value h

theorem stack_of_stored (h : Stored var value m m') :
    m'.stack = if var = 0 then value :: m.stack else m.stack := by
  cases h with
  | pushed hvar h => rw [if_pos hvar]
  | inLocal f fs hvar hlt hf h => rw [if_neg hvar]
  | inGlobal addr hvar hle ha h => rw [if_neg fun h₀ => hvar (by rw [h₀]; decide)]

/-- Exactly the variables with a cell can be written. -/
theorem exists_stored_iff :
    (∃ m', Stored var value m m') ↔ HasCell (m.stack.length < m.stackLimit) m var := by
  constructor
  · intro h
    obtain ⟨m', h⟩ := h
    cases h with
    | pushed hvar h => exact .inl ⟨hvar, h⟩
    | inLocal f fs hvar hlt hf h =>
        have hpos := toNat_pos_of_ne hvar
        exact .inr (.inl ⟨hpos, lt_sixteen_iff.mp hlt, f, fs, hf, by omega⟩)
    | inGlobal addr hvar hle ha h => exact .inr (.inr ⟨addr, globalAddr_eq_ok.mp ha, h⟩)
  · intro h
    rcases h with ⟨hvar, h⟩ | ⟨hpos, hle, f, fs, hf, h⟩ | ⟨addr, ha, h⟩
    · exact ⟨_, .pushed hvar h⟩
    · have hvar : var ≠ 0 := fun h₀ => by
        rw [h₀] at hpos
        exact absurd hpos (by decide)
      exact ⟨_, .inLocal f fs hvar (lt_sixteen_iff.mpr hle) hf (by omega)⟩
    · have hge := ha.1
      refine ⟨_, .inGlobal addr (fun hlt => ?_) (UInt16.le_iff_toNat_le.mpr ha.2.1)
        (globalAddr_eq_ok.mpr ha) h⟩
      have hle := lt_sixteen_iff.mp hlt
      omega

/-- A result is written to the variable that wants it, if that can be written. -/
theorem storeResult_of_hasCell {store : Option UInt8} {dest : UInt8} (value : Word)
    (hstore : store = some dest) (h : HasCell (m.stack.length < m.stackLimit) m dest.toUInt16) :
    ∃ m', Stored dest.toUInt16 value m m' ∧ storeResult store value m = .ok () m' := by
  obtain ⟨m', hstored⟩ : ∃ m', Stored dest.toUInt16 value m m' := exists_stored_iff.mpr h
  refine ⟨m', hstored, ?_⟩
  rw [hstore]
  exact storeVar_eq_ok.mpr hstored

theorem replaceTop_eq_ok {u : Unit} :
    replaceTop value m = .ok u m' ↔
      m.stack ≠ [] ∧ m' = { m with stack := value :: m.stack.tail } := by
  unfold replaceTop
  rw [get_bind]
  cases hs : m.stack with
  | nil =>
      constructor
      · intro h
        cases h
      · intro h
        exact absurd rfl h.1
  | cons w ws =>
      constructor
      · intro h
        cases h
        exact ⟨List.cons_ne_nil w ws, rfl⟩
      · intro h
        obtain ⟨-, rfl⟩ := h
        rfl

theorem replaceTop_eq_error {e : Fault} (h : replaceTop value m = .error e m') : m' = m := by
  unfold replaceTop at h
  rw [get_bind] at h
  cases hs : m.stack with
  | nil => rw [hs] at h; cases h; rfl
  | cons w ws => rw [hs] at h; cases h

theorem storeVar_missing (h : 0xff < var) :
    storeVar var value m = .error (.invalidVariable var) m := by
  have hnat : 0xff < var.toNat := UInt16.lt_iff_toNat_lt.mp h
  have h₀ : var ≠ 0 := fun h₀ => by
    rw [h₀] at hnat
    exact absurd hnat (by decide)
  have h₁ : ¬ var < 0x10 := fun h₁ => by
    have hle := lt_sixteen_iff.mp h₁
    omega
  have h₂ : ¬ var ≤ 0xff := fun h₂ => by
    have hle : var.toNat ≤ 0xff := UInt16.le_iff_toNat_le.mp h₂
    omega
  unfold storeVar
  rw [if_neg h₀, if_neg h₁, if_neg h₂]
  rfl

/-! ## 5. The laws -/

/-- Reading and writing treat variables as cells. For variable 0, `room` says when it can be written
and `below` what is then under the new top of the stack. -/
structure CellLaws (load : Word → Action Machine Word) (store : Word → Word → Action Machine Unit)
    (room : Machine → Prop) (below : List Word → List Word) : Prop where
  /-- Exactly the variables with a cell can be written. -/
  succeeds : ∀ var value m, (∃ u m', store var value m = .ok u m') ↔ HasCell (room m) m var
  /-- A write that fails changes nothing. -/
  failed : ∀ var value m e m', store var value m = .error e m' → m' = m
  /-- There are no variables behind the globals. -/
  missing : ∀ var value m, 0xff < var → store var value m = .error (.invalidVariable var) m
  /-- What is written is read back. -/
  read : ∀ var value m u m', store var value m = .ok u m' → Clear m var →
    (load var).answer m' = .ok value
  /-- Every other variable reads as before, value or fault. -/
  others : ∀ var value m u m', store var value m = .ok u m' → Clear m var →
    ∀ k, k ≠ 0 → k ≠ var → (load k).answer m' = (load k).answer m
  /-- The stack changes only where it is the variable that is written. -/
  stack : ∀ var value m u m', store var value m = .ok u m' →
    m'.stack = if var = 0 then value :: below m.stack else m.stack
  /-- Nothing outside the cell is touched. -/
  only : ∀ var value m u m', store var value m = .ok u m' → OnlyCell var m m'

theorem cellLaws_direct :
    CellLaws loadVar storeVar (fun m => m.stack.length < m.stackLimit) id where
  succeeds var value m := by
    rw [← @exists_stored_iff var value m]
    constructor
    · intro h
      obtain ⟨u, m', h⟩ := h
      exact ⟨m', storeVar_eq_ok.mp h⟩
    · intro h
      obtain ⟨m', h⟩ := h
      exact ⟨(), m', storeVar_eq_ok.mpr h⟩
  failed var value m e m' h := storeVar_eq_error h
  missing var value m h := storeVar_missing h
  read var value m u m' h hclear := answer_loadVar_of_stored (storeVar_eq_ok.mp h) hclear
  others var value m u m' h hclear k hk hne :=
    answer_loadVar_of_onlyCell (onlyCell_of_stored (storeVar_eq_ok.mp h)) hclear hk hne
  stack var value m u m' h := stack_of_stored (storeVar_eq_ok.mp h)
  only var value m u m' h := onlyCell_of_stored (storeVar_eq_ok.mp h)

/-- A write in place: the top of the stack is replaced, every other variable is written as
usual. -/
theorem storeIndirect_eq_ok {u : Unit} :
    storeIndirect var value m = .ok u m' ↔
      (var = 0 ∧ m.stack ≠ [] ∧ m' = { m with stack := value :: m.stack.tail }) ∨
        (var ≠ 0 ∧ Stored var value m m') := by
  unfold storeIndirect
  by_cases h₀ : var = 0
  · rw [if_pos h₀, replaceTop_eq_ok]
    simp [h₀]
  · rw [if_neg h₀, storeVar_eq_ok]
    simp [h₀]

theorem loadIndirect_of_ne (h : k ≠ 0) : loadIndirect k = loadVar k :=
  if_neg h

theorem peek_of_cons {values : List Word} (h : m.stack = value :: values) :
    peek m = .ok value m := by
  unfold peek
  rw [get_bind, h]
  rfl

/-- Whether the stack has room matters to no variable but 0. -/
theorem hasCell_congr {room room' : Prop} (h : var ≠ 0) :
    HasCell room m var ↔ HasCell room' m var := by
  unfold HasCell
  simp [h]

theorem onlyCell_of_storeIndirect {u : Unit} (h : storeIndirect var value m = .ok u m') :
    OnlyCell var m m' := by
  rcases storeIndirect_eq_ok.mp h with ⟨hvar, -, rfl⟩ | ⟨-, h⟩
  · exact .stack _ hvar
  · exact onlyCell_of_stored h

theorem cellLaws_inPlace :
    CellLaws loadIndirect storeIndirect (fun m => m.stack ≠ []) List.tail where
  succeeds var value m := by
    by_cases h₀ : var = 0
    · simp [storeIndirect_eq_ok, HasCell, GlobalAt, h₀]
    · have hiff := cellLaws_direct.succeeds var value m
      rw [hasCell_congr h₀] at hiff
      unfold storeIndirect
      rw [if_neg h₀]
      exact hiff
  failed var value m e m' h := by
    unfold storeIndirect at h
    split at h
    · exact replaceTop_eq_error h
    · exact storeVar_eq_error h
  missing var value m h := by
    have h₀ : var ≠ 0 := fun h₀ => by
      rw [h₀] at h
      exact absurd h (by decide)
    unfold storeIndirect
    rw [if_neg h₀]
    exact storeVar_missing h
  read var value m u m' h hclear := by
    rcases storeIndirect_eq_ok.mp h with ⟨rfl, -, rfl⟩ | ⟨hvar, h⟩
    · exact answer_of_ok (peek_of_cons rfl)
    · rw [loadIndirect_of_ne hvar]
      exact answer_loadVar_of_stored h hclear
  others var value m u m' h hclear k hk hne := by
    rw [loadIndirect_of_ne hk]
    exact answer_loadVar_of_onlyCell (onlyCell_of_storeIndirect h) hclear hk hne
  stack var value m u m' h := by
    rcases storeIndirect_eq_ok.mp h with ⟨hvar, -, rfl⟩ | ⟨hvar, h⟩
    · rw [if_pos hvar]
    · rw [stack_of_stored h, if_neg hvar, if_neg hvar]
  only var value m u m' h := onlyCell_of_storeIndirect h

/-- A value that was put on the stack is taken off again, and the machine is as before. -/
theorem loadVar_of_push {u : Unit} (h : storeVar 0 value m = .ok u m') :
    loadVar 0 m' = .ok value m := by
  obtain ⟨-, rfl⟩ := push_eq_ok.mp h
  exact pop_eq_ok.mpr ⟨m.stack, rfl, rfl⟩

/-- A write in place keeps the depth of the stack. -/
theorem length_stack_of_storeIndirect {u : Unit} (h : storeIndirect var value m = .ok u m') :
    m'.stack.length = m.stack.length := by
  rcases storeIndirect_eq_ok.mp h with ⟨-, hne, rfl⟩ | ⟨hvar, h⟩
  · have hpos := List.length_pos_iff.mpr hne
    show (value :: m.stack.tail).length = _
    rw [List.length_cons, List.length_tail]
    omega
  · rw [stack_of_stored h, if_neg hvar]

/-- **Every variable is a cell of its own**, whether variable 0 is the stack that values are pushed
on and popped off, which undo each other, or its top in place, where the stack keeps its depth and
reading changes nothing at all. -/
theorem variables_are_cells :
    CellLaws loadVar storeVar (fun m => m.stack.length < m.stackLimit) id ∧
      (∀ value m u m', storeVar 0 value m = .ok u m' → loadVar 0 m' = .ok value m) ∧
      CellLaws loadIndirect storeIndirect (fun m => m.stack ≠ []) List.tail ∧
      (∀ var value m u m', storeIndirect var value m = .ok u m' →
        m'.stack.length = m.stack.length) ∧
      ∀ var, Keeps (fun m m' => m' = m) (loadIndirect var) := by
  have : IsPreorder Machine (fun m m' => m' = m) :=
    { refl := fun _ => rfl, trans := fun _ _ _ h h' => h'.trans h }
  exact ⟨cellLaws_direct, fun _ _ _ _ h => loadVar_of_push h, cellLaws_inPlace,
    fun _ _ _ _ _ h => length_stack_of_storeIndirect h, keeps_loadIndirect⟩

/-- A machine of `size` bytes with its globals at `table`, in a routine with two locals. -/
def withGlobals (table : UInt8) (size : Nat) : Machine where
  memory := (⟨Array.replicate size 0⟩ : Memory).setByte 0x0d table
  version := 3
  pc := 0
  stack := [7]
  frames := [Frame.main [1, 2]]
  stackLimit := 2

theorem withGlobals_second_is_cell :
    (∃ m', storeVar 0x11 0xabcd (withGlobals 0x10 0x14) = .ok () m' ∧
        (loadVar 0x11).answer m' = .ok 0xabcd ∧
        (loadVar 0x10).answer m' = .ok 0 ∧ (loadVar 2).answer m' = .ok 2 ∧
        (loadVar 3).answer m' = .error (.noSuchLocal 3 2) ∧ m'.stack = [7]) ∧
      (∃ m', storeVar 0 9 (withGlobals 0x10 0x14) = .ok () m' ∧
        loadVar 0 m' = .ok 9 (withGlobals 0x10 0x14)) ∧
      (∃ m', storeIndirect 0 9 (withGlobals 0x10 0x14) = .ok () m' ∧
        (loadIndirect 0).answer m' = .ok 9 ∧ m'.stack = [9]) ∧
      storeVar 0x12 1 (withGlobals 0x10 0x14) =
        .error (.addressOutOfRange 0x14 0x14) (withGlobals 0x10 0x14) := by
  obtain ⟨direct, undo, indirect, -, -⟩ := variables_are_cells
  have hclear : ∀ var, Clear (withGlobals 0x10 0x14) var := by
    intro var addr h
    obtain ⟨-, -, table, htable, rfl⟩ := h
    cases htable
    exact .inr (Nat.lt_of_lt_of_le (by decide) (Nat.le_add_right 16 _))
  refine ⟨⟨_, rfl, ?_, ?_, ?_, ?_, ?_⟩, ⟨_, rfl, undo _ _ _ _ rfl⟩, ⟨_, rfl, ?_, ?_⟩, ?_⟩
  · exact direct.read _ _ _ _ _ rfl (hclear _)
  · exact direct.others 0x11 0xabcd _ _ _ rfl (hclear _) 0x10 (by decide) (by decide)
  · exact direct.others 0x11 0xabcd _ _ _ rfl (hclear _) 2 (by decide) (by decide)
  · exact direct.others 0x11 0xabcd _ _ _ rfl (hclear _) 3 (by decide) (by decide)
  · exact direct.stack 0x11 0xabcd (withGlobals 0x10 0x14) () _ rfl
  · exact indirect.read _ _ _ _ _ rfl (hclear _)
  · exact indirect.stack 0 9 (withGlobals 0x10 0x14) () _ rfl
  · rfl

/-- A global on the header's word moves the globals, itself included, and is not read back. -/
example : (do storeVar 0x10 0x12; loadVar 0x10 : Action Machine Word).answer
    (withGlobals 0x0c 0x14) = .ok 0 := by
  rfl

end Machine

end ZMachine
