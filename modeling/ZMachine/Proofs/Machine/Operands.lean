import ZMachine.Proofs.Decoding
import ZMachine.Proofs.Machine.Variables

/-!
# Operands and the stack

Operands are read from left to right. A constant stands for itself, a local or a global for the
value it has before any operand is read, and the operands that name the stack share out its topmost
values in their order. Reading takes these values off and touches nothing else.

* `Machine.Holds`, `Machine.Missing`    : locals and globals that have a value, and those that are
  not there.
* `Operand.pops`                        : operands that take a value off the stack.
* `Operand.HasValue`, `Operand.Lacks`   : what an operand stands for, and why it stands for nothing.
* `Machine.Values`                      : what a row of operands stands for.
* `Machine.resolve_eq_ok`, `resolve_eq_error` : rows that are read, and rows that are not.
* `Machine.operands_read_in_order`      : both, and what decoding says about operands.
-/

namespace ZMachine

open ZMachine.Action

namespace Machine

variable {m m' : Machine} {var value : Word} {e : Fault}

/-! ## 1. Locals and globals -/

/-- The number of locals of the running routine. -/
def available (m : Machine) : Nat :=
  (m.frames.head?.map (·.locals.length)).getD 0

/-- The variable has the value, as a local of the running routine or as a global in memory. -/
inductive Holds (m : Machine) (var value : Word) : Prop where
  | inLocal (f : Frame) (fs : List Frame) (hpos : 1 ≤ var.toNat) (hle : var.toNat ≤ 15)
      (hf : m.frames = f :: fs) (h : f.locals[var.toNat - 1]? = some value) : Holds m var value
  | inGlobal (addr : Nat) (haddr : GlobalAt m.memory var addr)
      (h : m.memory.readWord addr = .ok value) : Holds m var value

/-- The variable is not there, and this is the fault that says so: the running routine has fewer
locals, or the global does not lie in memory, or there is no variable of that number. -/
inductive Missing (m : Machine) (var : Word) : Fault → Prop where
  | noLocal (hpos : 1 ≤ var.toNat) (hle : var.toNat ≤ 15) (h : m.available < var.toNat) :
      Missing m var (.noSuchLocal var.toUInt8 m.available)
  | noGlobal (e : Fault) (hge : 0x10 ≤ var.toNat) (hle : var.toNat ≤ 0xff) (he : e.IsOutOfRange)
      (h : ∀ addr, GlobalAt m.memory var addr → m.memory.size ≤ addr + 1) : Missing m var e
  | noVariable (h : 0xff < var.toNat) : Missing m var (.invalidVariable var)

theorem readLocal_eq_ok (hvar : var ≠ 0) :
    readLocal var m = .ok value m' ↔
      (∃ f fs, m.frames = f :: fs ∧ f.locals[var.toNat - 1]? = some value) ∧ m' = m := by
  unfold readLocal
  rw [get_bind, lift_bind_eq_ok]
  constructor
  · intro h
    obtain ⟨slot, hslot, h⟩ := h
    obtain ⟨f, fs, hf, hlt, rfl⟩ := (localSlot_eq_ok hvar).mp hslot
    have hvalue : f.locals[var.toNat - 1]? = some f.locals[var.toNat - 1] :=
      List.getElem?_eq_getElem hlt
    rw [hf] at h
    simp only [List.head?_cons, Option.bind_some, hvalue] at h
    cases h
    exact ⟨⟨f, fs, hf, hvalue⟩, rfl⟩
  · intro h
    obtain ⟨⟨f, fs, hf, hvalue⟩, rfl⟩ := h
    obtain ⟨hlt, -⟩ := List.getElem?_eq_some_iff.mp hvalue
    refine ⟨var.toNat - 1, (localSlot_eq_ok hvar).mpr ⟨f, fs, hf, hlt, rfl⟩, ?_⟩
    rw [hf]
    simp only [List.head?_cons, Option.bind_some, hvalue]
    rfl

theorem readGlobal_eq_ok :
    readGlobal var m = .ok value m' ↔
      (∃ addr, GlobalAt m.memory var addr ∧ m.memory.readWord addr = .ok value) ∧ m' = m := by
  unfold readGlobal
  rw [get_bind, lift_bind_eq_ok]
  constructor
  · intro h
    obtain ⟨addr, haddr, h⟩ := h
    obtain ⟨hvalue, rfl⟩ := lift_eq_ok.mp h
    exact ⟨⟨addr, globalAddr_eq_ok.mp haddr, hvalue⟩, rfl⟩
  · intro h
    obtain ⟨⟨addr, haddr, hvalue⟩, rfl⟩ := h
    exact ⟨addr, globalAddr_eq_ok.mpr haddr, lift_eq_ok.mpr ⟨hvalue, rfl⟩⟩

/-- **A variable other than the stack is read if it has a value**, and nothing changes. -/
theorem loadVar_eq_ok (hvar : var ≠ 0) :
    loadVar var m = .ok value m' ↔ Holds m var value ∧ m' = m := by
  have hpos := toNat_pos_of_ne hvar
  unfold loadVar
  rw [if_neg hvar]
  by_cases hlocal : var < 0x10
  · have hle := lt_sixteen_iff.mp hlocal
    rw [if_pos hlocal, readLocal_eq_ok hvar]
    constructor
    · intro h
      obtain ⟨⟨f, fs, hf, hvalue⟩, hm⟩ := h
      exact ⟨.inLocal f fs hpos hle hf hvalue, hm⟩
    · intro h
      obtain ⟨hholds, hm⟩ := h
      cases hholds with
      | inLocal f fs _ _ hf hvalue => exact ⟨⟨f, fs, hf, hvalue⟩, hm⟩
      | inGlobal addr haddr _ =>
          have hge := haddr.1
          omega
  · have hge : ¬ var.toNat ≤ 15 := fun h => hlocal (lt_sixteen_iff.mpr h)
    rw [if_neg hlocal]
    by_cases hglobal : var ≤ 0xff
    · rw [if_pos hglobal, readGlobal_eq_ok]
      constructor
      · intro h
        obtain ⟨⟨addr, haddr, hvalue⟩, hm⟩ := h
        exact ⟨.inGlobal addr haddr hvalue, hm⟩
      · intro h
        obtain ⟨hholds, hm⟩ := h
        cases hholds with
        | inLocal f fs _ hle _ _ => exact absurd hle hge
        | inGlobal addr haddr hvalue => exact ⟨⟨addr, haddr, hvalue⟩, hm⟩
    · rw [if_neg hglobal]
      constructor
      · intro h
        cases h
      · intro h
        obtain ⟨hholds, -⟩ := h
        cases hholds with
        | inLocal f fs _ hle _ _ => exact absurd hle hge
        | inGlobal addr haddr _ => exact absurd (UInt16.le_iff_toNat_le.mpr haddr.2.1) hglobal

theorem readLocal_eq_error (hvar : var ≠ 0) (h : readLocal var m = .error e m') :
    m' = m ∧ m.available < var.toNat ∧ e = .noSuchLocal var.toUInt8 m.available := by
  have hpos := toNat_pos_of_ne hvar
  unfold readLocal at h
  rw [get_bind, lift_bind_eq_error] at h
  rcases h with ⟨hslot, rfl⟩ | ⟨slot, hslot, h⟩
  · unfold localSlot at hslot
    rw [if_neg hvar] at hslot
    split at hslot
    · cases hslot
    · rename_i hge
      cases hslot
      refine ⟨rfl, ?_, rfl⟩
      show (m.frames.head?.map (·.locals.length)).getD 0 < _
      omega
  · -- A slot that is there holds a value.
    obtain ⟨f, fs, hf, hlt, rfl⟩ := (localSlot_eq_ok hvar).mp hslot
    have hvalue : f.locals[var.toNat - 1]? = some f.locals[var.toNat - 1] :=
      List.getElem?_eq_getElem hlt
    rw [hf] at h
    simp only [List.head?_cons, Option.bind_some, hvalue] at h
    cases h

theorem readGlobal_eq_error (hge : 0x10 ≤ var.toNat) (hle : var.toNat ≤ 0xff)
    (h : readGlobal var m = .error e m') :
    m' = m ∧ e.IsOutOfRange ∧ ∀ addr, GlobalAt m.memory var addr → m.memory.size ≤ addr + 1 := by
  unfold readGlobal at h
  rw [get_bind, lift_bind_eq_error] at h
  rcases h with ⟨haddr, rfl⟩ | ⟨addr, haddr, h⟩
  · have hrange : 0x10 ≤ var ∧ var ≤ 0xff :=
      ⟨UInt16.le_iff_toNat_le.mpr hge, UInt16.le_iff_toNat_le.mpr hle⟩
    unfold globalAddr at haddr
    rw [if_pos hrange] at haddr
    rcases except_bind_eq_error.mp haddr with htable | ⟨table, -, h⟩
    · refine ⟨rfl, Memory.readWord_error htable, fun addr hat => ?_⟩
      obtain ⟨-, -, table, htable', -⟩ := hat
      cases htable'.symm.trans htable
    · cases h
  · obtain ⟨hword, rfl⟩ := lift_eq_error.mp h
    refine ⟨rfl, Memory.readWord_error hword, fun addr' hat => ?_⟩
    cases haddr.symm.trans (globalAddr_eq_ok.mpr hat)
    refine Nat.le_of_not_lt fun hlt => ?_
    obtain ⟨w, hw⟩ := Memory.readWord_of_lt hlt
    cases hw.symm.trans hword

/-- **A variable other than the stack that cannot be read is not there.** -/
theorem loadVar_eq_error (hvar : var ≠ 0) (h : loadVar var m = .error e m') :
    Missing m var e ∧ m' = m := by
  have hpos := toNat_pos_of_ne hvar
  unfold loadVar at h
  rw [if_neg hvar] at h
  by_cases hlocal : var < 0x10
  · rw [if_pos hlocal] at h
    obtain ⟨hm, hlt, rfl⟩ := readLocal_eq_error hvar h
    exact ⟨.noLocal hpos (lt_sixteen_iff.mp hlocal) hlt, hm⟩
  · rw [if_neg hlocal] at h
    have hge : ¬ var.toNat ≤ 15 := fun hle => hlocal (lt_sixteen_iff.mpr hle)
    by_cases hglobal : var ≤ 0xff
    · rw [if_pos hglobal] at h
      have hle : var.toNat ≤ 0xff := UInt16.le_iff_toNat_le.mp hglobal
      obtain ⟨hm, he, hout⟩ := readGlobal_eq_error (by omega) hle h
      exact ⟨.noGlobal e (by omega) hle he hout, hm⟩
    · rw [if_neg hglobal] at h
      cases h
      refine ⟨.noVariable (Nat.lt_of_not_le fun hle => hglobal ?_), rfl⟩
      exact UInt16.le_iff_toNat_le.mpr hle

/-- A fault about a variable that is not there says nothing about the stack. -/
theorem Missing.ne_stackUnderflow (h : Missing m var e) : e ≠ .stackUnderflow := by
  cases h with
  | noLocal _ _ _ => exact nofun
  | noGlobal e _ _ he _ =>
      obtain ⟨addr, size, rfl⟩ := he
      exact nofun
  | noVariable _ => exact nofun

end Machine

/-! ## 2. One operand -/

namespace Operand

/-- Whether the operand takes a value off the stack. -/
def pops (o : Operand) : Bool :=
  decide (o = ⟨.variable, 0⟩)

/-- How many of the operands do. -/
def popCount (operands : List Operand) : Nat :=
  operands.countP pops

/-- What the operand stands for on the machine, if so many values at the top of its stack go to the
operands before it. -/
inductive HasValue (m : Machine) (before : Nat) : Operand → Word → Prop where
  | constant (o : Operand) (hkind : o.kind ≠ .variable) : HasValue m before o o.raw
  | popped (value : Word) (h : m.stack[before]? = some value) :
      HasValue m before ⟨.variable, 0⟩ value
  | held (var value : Word) (hvar : var ≠ 0) (h : m.Holds var value) :
      HasValue m before ⟨.variable, var⟩ value

/-- The operand stands for nothing, and this is the fault: the operands before it leave no value on
the stack, or the local or global that it names is not there. -/
inductive Lacks (m : Machine) (before : Nat) : Operand → Fault → Prop where
  | empty (h : m.stack.length ≤ before) : Lacks m before ⟨.variable, 0⟩ .stackUnderflow
  | missing (var : Word) (e : Fault) (hvar : var ≠ 0) (h : m.Missing var e) :
      Lacks m before ⟨.variable, var⟩ e

variable {m : Machine} {before : Nat} {o : Operand} {var value : Word}

theorem hasValue_of_constant (hkind : o.kind ≠ .variable) :
    o.HasValue m before value ↔ value = o.raw := by
  constructor
  · intro h
    cases h with
    | constant _ _ => rfl
    | popped _ _ => exact absurd rfl hkind
    | held _ _ _ _ => exact absurd rfl hkind
  · rintro rfl
    exact .constant o hkind

theorem hasValue_of_stack :
    HasValue m before ⟨.variable, 0⟩ value ↔ m.stack[before]? = some value := by
  constructor
  · intro h
    cases h with
    | constant _ hkind => exact absurd rfl hkind
    | popped _ h => exact h
    | held _ _ hvar _ => exact absurd rfl hvar
  · intro h
    exact .popped value h

theorem hasValue_of_ne (hvar : var ≠ 0) :
    HasValue m before ⟨.variable, var⟩ value ↔ m.Holds var value := by
  constructor
  · intro h
    cases h with
    | constant _ hkind => exact absurd rfl hkind
    | popped _ _ => exact absurd rfl hvar
    | held _ _ _ h => exact h
  · intro h
    exact .held var value hvar h

theorem popCount_cons (o : Operand) (rest : List Operand) :
    popCount (o :: rest) = popCount [o] + popCount rest := by
  show ([o] ++ rest).countP pops = _
  exact List.countP_append

theorem popCount_of_constant (h : o.kind ≠ .variable) : popCount [o] = 0 := by
  have hpops : o.pops = false := decide_eq_false fun ho => h (congrArg Operand.kind ho)
  simp [popCount, hpops]

theorem popCount_of_ne (h : var ≠ 0) : popCount [⟨.variable, var⟩] = 0 := by
  have hpops : pops ⟨.variable, var⟩ = false :=
    decide_eq_false fun ho => h (congrArg Operand.raw ho)
  simp [popCount, hpops]

end Operand

namespace Machine

open Operand

variable {m m' : Machine} {o : Operand} {operands rest : List Operand} {args : List Word}
  {value : Word} {e : Fault} {before : Nat}

/-- The machine once the operands have been read: their values are off the stack. -/
def afterReading (m : Machine) (operands : List Operand) : Machine :=
  { m with stack := m.stack.drop (popCount operands) }

theorem afterReading_cons (m : Machine) (o : Operand) (rest : List Operand) :
    m.afterReading (o :: rest) = (m.afterReading [o]).afterReading rest := by
  unfold afterReading
  rw [popCount_cons]
  simp only [List.drop_drop]

theorem afterReading_of_zero (h : popCount operands = 0) : m.afterReading operands = m := by
  unfold afterReading
  rw [h]
  rfl

/-- Reading operands leaves locals and globals where they are. -/
theorem holds_afterReading {var : Word} :
    (m.afterReading operands).Holds var value ↔ m.Holds var value := by
  constructor
  · intro h
    cases h with
    | inLocal f fs hpos hle hf h => exact .inLocal f fs hpos hle hf h
    | inGlobal addr haddr h => exact .inGlobal addr haddr h
  · intro h
    cases h with
    | inLocal f fs hpos hle hf h => exact .inLocal f fs hpos hle hf h
    | inGlobal addr haddr h => exact .inGlobal addr haddr h

theorem missing_of_afterReading {var : Word} (h : (m.afterReading operands).Missing var e) :
    m.Missing var e := by
  cases h with
  | noLocal hpos hle h => exact .noLocal hpos hle h
  | noGlobal e hge hle he h => exact .noGlobal e hge hle he h
  | noVariable h => exact .noVariable h

/-- What an operand stands for once others have been read, it stood for before. -/
theorem hasValue_afterReading :
    o.HasValue (m.afterReading operands) before value ↔
      o.HasValue m (popCount operands + before) value := by
  constructor
  · intro h
    cases h with
    | constant _ hkind => exact .constant o hkind
    | popped _ h => exact .popped value (by rwa [afterReading, List.getElem?_drop] at h)
    | held var _ hvar h => exact .held var value hvar (holds_afterReading.mp h)
  · intro h
    cases h with
    | constant _ hkind => exact .constant o hkind
    | popped _ h => exact .popped value (by rwa [afterReading, List.getElem?_drop])
    | held var _ hvar h => exact .held var value hvar (holds_afterReading.mpr h)

theorem lacks_of_afterReading (h : o.Lacks (m.afterReading operands) before e) :
    o.Lacks m (popCount operands + before) e := by
  cases h with
  | empty h =>
      refine .empty ?_
      rw [afterReading, List.length_drop] at h
      omega
  | missing var _ hvar h => exact .missing var e hvar (missing_of_afterReading h)

theorem pop_eq_ok_head :
    pop m = .ok value m' ↔ m.stack[0]? = some value ∧ m' = { m with stack := m.stack.drop 1 } := by
  rw [pop_eq_ok]
  cases hs : m.stack with
  | nil => simp
  | cons w ws =>
      constructor
      · rintro ⟨rest, hcons, rfl⟩
        cases hcons
        exact ⟨rfl, rfl⟩
      · rintro ⟨hw, rfl⟩
        cases hw
        exact ⟨ws, rfl, rfl⟩

/-- **One operand is read for what it stands for**, and then its value is off the stack. -/
theorem resolveOperand_eq_ok :
    resolveOperand o m = .ok value m' ↔ o.HasValue m 0 value ∧ m' = m.afterReading [o] := by
  obtain ⟨kind, raw⟩ := o
  by_cases hkind : kind = .variable
  · subst hkind
    show loadVar raw m = .ok value m' ↔ _
    by_cases hraw : raw = 0
    · subst hraw
      rw [hasValue_of_stack]
      exact pop_eq_ok_head
    · rw [loadVar_eq_ok hraw, hasValue_of_ne hraw, afterReading_of_zero (popCount_of_ne hraw)]
  · have hpure : resolveOperand ⟨kind, raw⟩ m = .ok raw m := by
      match kind with
      | .large => rfl
      | .small => rfl
      | .variable => exact absurd rfl hkind
    rw [hpure, hasValue_of_constant hkind, afterReading_of_zero (popCount_of_constant hkind)]
    simp [eq_comm]

/-- An operand that cannot be read changes nothing. -/
theorem resolveOperand_eq_error (h : resolveOperand o m = .error e m') :
    o.Lacks m 0 e ∧ m' = m := by
  obtain ⟨kind, raw⟩ := o
  match kind with
  | .large => cases h
  | .small => cases h
  | .variable =>
      have h : loadVar raw m = .error e m' := h
      by_cases hraw : raw = 0
      · subst hraw
        have h : pop m = .error e m' := h
        unfold pop at h
        rw [get_bind] at h
        cases hs : m.stack with
        | nil =>
            rw [hs] at h
            cases h
            exact ⟨.empty (by rw [hs]; exact Nat.le_refl 0), rfl⟩
        | cons w ws => rw [hs] at h; cases h
      · obtain ⟨hmissing, hm⟩ := loadVar_eq_error hraw h
        exact ⟨.missing raw e hraw hmissing, hm⟩

/-! ## 3. Rows of operands -/

/-- What a row of operands stands for: as many values, each that of its operand, where the operands
before it have the stack's topmost values. -/
structure Values (m : Machine) (operands : List Operand) (args : List Word) : Prop where
  length : args.length = operands.length
  each : ∀ (k : Nat) (o : Operand), operands[k]? = some o →
    ∃ value, args[k]? = some value ∧ o.HasValue m (popCount (operands.take k)) value

theorem values_nil : m.Values [] [] :=
  ⟨rfl, nofun⟩

/-- The first operand comes before all others. -/
theorem values_cons :
    m.Values (o :: rest) args ↔
      ∃ value more, args = value :: more ∧ o.HasValue m 0 value ∧
        (m.afterReading [o]).Values rest more := by
  constructor
  · intro h
    obtain ⟨value, hvalue, hfirst⟩ := h.each 0 o rfl
    cases args with
    | nil => cases hvalue
    | cons first more =>
        cases hvalue
        refine ⟨value, more, rfl, hfirst, Nat.succ.inj h.length, fun k o' ho' => ?_⟩
        obtain ⟨value, hvalue, hhas⟩ := h.each (k + 1) o' ho'
        rw [List.take_succ_cons, popCount_cons] at hhas
        exact ⟨value, hvalue, hasValue_afterReading.mpr hhas⟩
  · intro h
    obtain ⟨v, more, rfl, hfirst, hrest⟩ := h
    refine ⟨congrArg Nat.succ hrest.length, fun k o' ho' => ?_⟩
    cases k with
    | zero =>
        cases ho'
        exact ⟨v, rfl, hfirst⟩
    | succ k =>
        obtain ⟨value, hvalue, hhas⟩ := hrest.each k o' ho'
        rw [List.take_succ_cons, popCount_cons]
        exact ⟨value, hvalue, hasValue_afterReading.mp hhas⟩

/-- **A row of operands is read for what it stands for**, and then its values are off the stack. -/
theorem resolve_eq_ok :
    resolve operands m = .ok args m' ↔ m.Values operands args ∧ m' = m.afterReading operands := by
  induction operands generalizing m args with
  | nil =>
      constructor
      · intro h
        cases h
        exact ⟨values_nil, rfl⟩
      · intro h
        obtain ⟨hvalues, rfl⟩ := h
        rw [List.eq_nil_of_length_eq_zero hvalues.length]
        rfl
  | cons o rest ih =>
      unfold resolve
      rw [bind_eq_ok, afterReading_cons, values_cons]
      constructor
      · intro h
        obtain ⟨value, q, hfirst, h⟩ := h
        obtain ⟨more, q', hrest, h⟩ := bind_eq_ok.mp h
        cases h
        obtain ⟨hvalue, rfl⟩ := resolveOperand_eq_ok.mp hfirst
        obtain ⟨hvalues, rfl⟩ := ih.mp hrest
        exact ⟨⟨value, more, rfl, hvalue, hvalues⟩, rfl⟩
      · intro h
        obtain ⟨⟨value, more, rfl, hvalue, hvalues⟩, rfl⟩ := h
        refine ⟨value, _, resolveOperand_eq_ok.mpr ⟨hvalue, rfl⟩, ?_⟩
        exact bind_eq_ok.mpr ⟨more, _, ih.mpr ⟨hvalues, rfl⟩, rfl⟩

/-- Operand number `k` is the first that stands for nothing. -/
structure StuckAt (m : Machine) (operands : List Operand) (k : Nat) (o : Operand) (e : Fault) :
    Prop where
  here : operands[k]? = some o
  before : ∃ args, m.Values (operands.take k) args
  lacks : o.Lacks m (popCount (operands.take k)) e

/-- **A row of operands that cannot be read is stuck at one of them**, with the values of those
before it off the stack. -/
theorem resolve_eq_error (h : resolve operands m = .error e m') :
    ∃ k o, m.StuckAt operands k o e ∧ m' = m.afterReading (operands.take k) := by
  induction operands generalizing m with
  | nil => cases h
  | cons o rest ih =>
      unfold resolve at h
      rcases bind_eq_error.mp h with hfirst | ⟨value, q, hfirst, h⟩
      · obtain ⟨hlacks, rfl⟩ := resolveOperand_eq_error hfirst
        exact ⟨0, o, ⟨rfl, ⟨[], values_nil⟩, hlacks⟩, rfl⟩
      · -- The rest is stuck on the machine without the first value: seen from `m`, one further on.
        obtain ⟨hvalue, rfl⟩ := resolveOperand_eq_ok.mp hfirst
        rcases bind_eq_error.mp h with hrest | ⟨more, q, -, h⟩
        · obtain ⟨k, o', hstuck, hm⟩ := ih hrest
          obtain ⟨args, hargs⟩ := hstuck.before
          have hlacks := lacks_of_afterReading hstuck.lacks
          refine ⟨k + 1, o', ⟨hstuck.here, ⟨value :: args, ?_⟩, ?_⟩, ?_⟩
          · exact values_cons.mpr ⟨value, args, rfl, hvalue, hargs⟩
          · rwa [List.take_succ_cons, popCount_cons]
          · rwa [List.take_succ_cons, afterReading_cons]
        · cases h

theorem StuckAt.mem {k : Nat} (h : m.StuckAt operands k o e) : o ∈ operands :=
  List.mem_of_getElem? h.here

/-- Where the stack is empty too early, more operands take a value than it has. -/
theorem StuckAt.length_lt {k : Nat} (h : m.StuckAt operands k o .stackUnderflow) :
    m.stack.length < popCount operands := by
  have hsplit : operands.take k ++ o :: operands.drop (k + 1) = operands := by
    obtain ⟨hk, rfl⟩ := List.getElem?_eq_some_iff.mp h.here
    rw [← List.drop_eq_getElem_cons hk, List.take_append_drop]
  have hcount : popCount operands =
      popCount (operands.take k) + popCount (o :: operands.drop (k + 1)) := by
    unfold popCount
    rw [← List.countP_append, hsplit]
  rw [popCount_cons] at hcount
  cases h.lacks with
  | empty hle =>
      have hone : popCount [⟨.variable, 0⟩] = 1 := rfl
      omega
  | missing var _ _ hmissing => exact absurd rfl hmissing.ne_stackUnderflow

/-- Otherwise the operand names a local or a global that is not there. -/
theorem StuckAt.missing {k : Nat} (h : m.StuckAt operands k o e) (he : e ≠ .stackUnderflow) :
    o.kind = .variable ∧ o.raw ≠ 0 ∧ m.Missing o.raw e := by
  cases h.lacks with
  | empty _ => exact absurd rfl he
  | missing var _ hvar hmissing => exact ⟨rfl, hvar, hmissing⟩

end Machine

/-! ## 4. Operands of instructions -/

namespace Instruction

theorem raw_le_of_scanOperand {memory : Memory} {kind : OperandKind} {p q : Nat} {o : Operand}
    (h : scanOperand memory kind p = .ok o q) (hkind : o.kind = .variable) :
    o.raw.toNat ≤ 0xff := by
  match kind with
  | .large =>
      obtain ⟨w, r, -, h⟩ := bind_eq_ok.mp h
      cases h
      cases hkind
  | .small =>
      obtain ⟨b, r, -, h⟩ := bind_eq_ok.mp h
      cases h
      cases hkind
  | .variable =>
      obtain ⟨b, r, -, h⟩ := bind_eq_ok.mp h
      cases h
      show b.toUInt16.toNat ≤ 0xff
      rw [UInt8.toNat_toUInt16]
      exact Nat.le_of_lt_succ b.toNat_lt

theorem raw_le_of_scanOperands : ∀ {memory : Memory} {kinds : List OperandKind} {p q : Nat}
    {operands : List Operand}, scanOperands memory kinds p = .ok operands q →
      ∀ o ∈ operands, o.kind = .variable → o.raw.toNat ≤ 0xff
  | _, [], _, _, _, h => by
      cases h
      exact nofun
  | _, kind :: rest, _, _, _, h => by
      obtain ⟨first, r, hfirst, h⟩ := bind_eq_ok.mp h
      obtain ⟨others, r', hothers, h⟩ := bind_eq_ok.mp h
      cases h
      intro o ho
      rcases List.mem_cons.mp ho with rfl | ho
      · exact raw_le_of_scanOperand hfirst
      · exact raw_le_of_scanOperands hothers o ho

/-- The variables that a decoded instruction names are the stack, locals and globals. -/
theorem raw_le_of_decode {memory : Memory} {addr : Nat} {version : UInt8} {i : Instruction}
    (h : decode memory addr version = .ok i) :
    ∀ o ∈ i.operands, o.kind = .variable → o.raw.toNat ≤ 0xff := by
  have hscan := decode_eq_ok.mp h
  generalize addr + i.size = stop at hscan
  obtain ⟨start, r, -, h⟩ := bind_eq_ok.mp hscan
  obtain ⟨⟨form, op, kinds⟩, q₁, -, h⟩ := bind_eq_ok.mp h
  obtain ⟨operands, q₂, hoperands, h⟩ := bind_eq_ok.mp h
  obtain ⟨store, q₃, -, h⟩ := bind_eq_ok.mp h
  obtain ⟨branch, q₄, -, h⟩ := bind_eq_ok.mp h
  obtain ⟨textAddr, q₅, -, h⟩ := bind_eq_ok.mp h
  cases h
  exact raw_le_of_scanOperands hoperands

end Instruction

namespace Machine

open Operand

/-- **Operands are read from left to right, and nothing else is touched.** A row of operands is read
exactly if each of them stands for something: a constant for itself, a local or global for its value
before any is read, and an operand that names the stack for the value as far from its top as such
operands come before it. These values are then off the stack, and all else is as it was. A row that
cannot be read is stuck at the first operand that stands for nothing. If the stack is blamed, more
operands name it than it has values; otherwise a local or global that one of them names is not
there. No instruction names other variables than these. -/
theorem operands_read_in_order (operands : List Operand) (m : Machine) :
    (∀ args m', resolve operands m = .ok args m' ↔
      m.Values operands args ∧ m' = m.afterReading operands) ∧
    (∀ e m', resolve operands m = .error e m' →
      (∃ k o, m.StuckAt operands k o e ∧ m' = m.afterReading (operands.take k)) ∧
      (e = .stackUnderflow → m.stack.length < popCount operands) ∧
      (e ≠ .stackUnderflow →
        ∃ o ∈ operands, o.kind = .variable ∧ o.raw ≠ 0 ∧ m.Missing o.raw e)) ∧
    ∀ memory addr version i, Instruction.decode memory addr version = .ok i →
      ∀ o ∈ i.operands, o.kind = .variable → o.raw.toNat ≤ 0xff := by
  refine ⟨fun args m' => resolve_eq_ok, fun e m' h => ?_,
    fun _ _ _ i => Instruction.raw_le_of_decode⟩
  obtain ⟨k, o, hstuck, hm⟩ := resolve_eq_error h
  refine ⟨⟨k, o, hstuck, hm⟩, ?_, fun he => ⟨o, hstuck.mem, hstuck.missing he⟩⟩
  rintro rfl
  exact hstuck.length_lt

/-- A machine with three values on its stack, two locals and two globals. -/
def withThreeValues : Machine :=
  { withGlobals 0x10 0x14 with
    memory := (withGlobals 0x10 0x14).memory.setWord 0x12 0x1234
    stack := [7, 8, 9] }

/-- A call whose operands are the stack, a number, the stack again, a local and a global. -/
def mixedCall : Instruction where
  opcode := ⟨.var, 0x0c⟩
  form := .variable
  operands := [⟨.variable, 0⟩, ⟨.small, 5⟩, ⟨.variable, 0⟩, ⟨.variable, 2⟩, ⟨.variable, 0x11⟩]
  store := some 0
  branch := none
  textAddr := none
  size := 9

/-- With one value too few on the stack the second operand that names it is stuck, and outside of
all routines the local is. -/
theorem mixedCall_in_order :
    Instruction.decode ⟨#[0xec, 0x9a, 0xbf, 0x00, 0x05, 0x00, 0x02, 0x11, 0x00]⟩ 0 5 =
        .ok mixedCall ∧
      withThreeValues.Values mixedCall.operands [7, 5, 8, 2, 0x1234] ∧
      resolve mixedCall.operands withThreeValues =
        .ok [7, 5, 8, 2, 0x1234] { withThreeValues with stack := [9] } ∧
      (∃ m', resolve mixedCall.operands { withThreeValues with stack := [7] } =
          .error .stackUnderflow m' ∧ 1 < popCount mixedCall.operands) ∧
      ∃ e m', resolve mixedCall.operands { withThreeValues with frames := [] } = .error e m' ∧
        ∃ o ∈ mixedCall.operands, o.raw ≠ 0 ∧ o.raw.toNat ≤ 0xff ∧
          Missing { withThreeValues with frames := [] } o.raw e := by
  have hdecode : Instruction.decode ⟨#[0xec, 0x9a, 0xbf, 0x00, 0x05, 0x00, 0x02, 0x11, 0x00]⟩ 0 5 =
      .ok mixedCall := rfl
  obtain ⟨hread, -, hraw⟩ := operands_read_in_order mixedCall.operands withThreeValues
  refine ⟨hdecode, ((hread _ _).mp rfl).1, rfl, ⟨_, rfl, ?_⟩, _, _, rfl, ?_⟩
  · obtain ⟨-, hfails, -⟩ :=
      operands_read_in_order mixedCall.operands { withThreeValues with stack := [7] }
    exact (hfails _ _ rfl).2.1 rfl
  · obtain ⟨-, hfails, -⟩ :=
      operands_read_in_order mixedCall.operands { withThreeValues with frames := [] }
    obtain ⟨o, ho, hkind, hne, hmissing⟩ := (hfails _ _ rfl).2.2 nofun
    exact ⟨o, ho, hne, hraw _ _ _ _ hdecode o ho hkind, hmissing⟩

end Machine

end ZMachine
