import ZMachine.Proofs.Decoding
import ZMachine.Proofs.Session.Step

/-!
# Two forms of one instruction

An opcode with two operands of one byte each can be written in long form, where two bits of the
first byte type the operands, and in variable form, where a byte of its own does. Both are decoded
to the same instruction up to form and size, and no operation looks at these.

* `Memory.SameRow`              : the same bytes in two places.
* `Cursor.Movable`              : readers whose answer does not depend on the place; a sequence of
  them is one.
* `Instruction.decode_eq_ok_of_head` : an instruction, once its first bytes are known.
* `Instruction.decode_inVariableForm`, `decode_ofVariableForm` : from one form to the other and
  back.
* `Operation.perform_written`   : no operation depends on how its instruction is written.
* `Session.forms_alike`         : decoding and execution together.
-/

namespace ZMachine

/-! ## 1. The same bytes in two places -/

/-- The second memory holds from `place'` on the `count` bytes that the first holds from `place`
on. -/
def Memory.SameRow (m : Memory) (place : Nat) (m' : Memory) (place' count : Nat) : Prop :=
  ∀ k < count, m'.bytes[place' + k]? = m.bytes[place + k]?

namespace Memory

variable {m m' : Memory} {place place' count more : Nat}

theorem SameRow.take (h : SameRow m place m' place' (count + more)) :
    SameRow m place m' place' count :=
  fun k hk => h k (by omega)

theorem SameRow.drop (h : SameRow m place m' place' (count + more)) :
    SameRow m (place + count) m' (place' + count) more := by
  intro k hk
  have hk' := h (count + k) (by omega)
  rwa [← Nat.add_assoc, ← Nat.add_assoc] at hk'

end Memory

namespace Cursor

variable {α β : Type}

/-- Wherever the bytes stand that the reader moves past, it gives the same answer and moves as
far. -/
structure Movable (read : Memory → Cursor α) : Prop where
  moved : ∀ {m p a q}, read m p = .ok a q →
    ∃ n, q = p + n ∧ ∀ {m' p'}, m.SameRow p m' p' n → read m' p' = .ok a (p' + n)

theorem movable_pure (a : α) : Movable fun _ => (pure a : Cursor α) where
  moved h := by
    cases h
    exact ⟨0, rfl, fun _ => rfl⟩

/-- **A sequence of movable readers is movable.** -/
theorem Movable.bind {x : Memory → Cursor α} {f : Memory → α → Cursor β} (hx : Movable x)
    (hf : ∀ a, Movable fun m => f m a) : Movable fun m => x m >>= f m where
  moved {m p b q} h := by
    obtain ⟨a, r, h₁, h₂⟩ := Action.bind_eq_ok.mp h
    obtain ⟨n₁, rfl, hx'⟩ := hx.moved h₁
    obtain ⟨n₂, rfl, hf'⟩ := (hf a).moved h₂
    refine ⟨n₁ + n₂, Nat.add_assoc .., fun {m' p'} hrow => ?_⟩
    have h₂' : f m' a (p' + n₁) = .ok b (p' + n₁ + n₂) := hf' hrow.drop
    rw [← Nat.add_assoc]
    exact Action.bind_eq_ok.mpr ⟨a, _, hx' hrow.take, h₂'⟩

theorem Movable.ite {x y : Memory → Cursor α} {c : Prop} [Decidable c] (hx : Movable x)
    (hy : Movable y) : Movable fun m => if c then x m else y m := by
  by_cases h : c
  · simpa only [if_pos h] using hx
  · simpa only [if_neg h] using hy

theorem movable_byte : Movable byte where
  moved {m p b q} h := by
    obtain ⟨hb, rfl⟩ := byte_eq_ok.mp h
    refine ⟨1, rfl, fun {m' p'} hrow => byte_eq_ok.mpr ⟨?_, rfl⟩⟩
    have hrow₀ : m'.bytes[p']? = m.bytes[p]? := hrow 0 Nat.one_pos
    exact Memory.readByte_eq_ok.mpr (hrow₀.trans (Memory.readByte_eq_ok.mp hb))

theorem movable_word : Movable word where
  moved {m p w q} h := by
    obtain ⟨hw, rfl⟩ := word_eq_ok.mp h
    obtain ⟨hhigh, hlow⟩ := Memory.readWord_eq_ok_iff.mp hw
    refine ⟨2, rfl, fun {m' p'} hrow => word_eq_ok.mpr ⟨?_, rfl⟩⟩
    have hrow₀ : m'.bytes[p']? = m.bytes[p]? := hrow 0 Nat.two_pos
    have hrow₁ : m'.bytes[p' + 1]? = m.bytes[p + 1]? := hrow 1 Nat.one_lt_two
    exact Memory.readWord_eq_ok_iff.mpr ⟨hrow₀.trans hhigh, hrow₁.trans hlow⟩

end Cursor

/-! ## 2. What follows the first bytes -/

namespace Instruction

open Cursor

theorem movable_scanOperand (kind : OperandKind) : Movable fun m => scanOperand m kind := by
  match kind with
  | .large => exact movable_word.bind fun w => movable_pure _
  | .small | .variable => exact movable_byte.bind fun b => movable_pure _

theorem movable_scanOperands : ∀ kinds : List OperandKind, Movable fun m => scanOperands m kinds
  | [] => movable_pure _
  | kind :: rest =>
      (movable_scanOperand kind).bind fun _ =>
        (movable_scanOperands rest).bind fun _ => movable_pure _

theorem movable_scanBranch : Movable scanBranch := by
  refine movable_byte.bind fun first => ?_
  exact Movable.ite (movable_pure _) (movable_byte.bind fun low => movable_pure _)

theorem movable_scanIf {α : Type} {read : Memory → Cursor α} (present : Bool) (h : Movable read) :
    Movable fun m => scanIf present (read m) := by
  unfold scanIf
  cases present with
  | true => exact h.bind fun a => movable_pure (some a)
  | false => exact movable_pure none

/-- Operands, store variable and branch of an instruction, behind its first bytes. -/
def scanBody (m : Memory) (version : UInt8) (op : Opcode) (kinds : List OperandKind) :
    Cursor (List Operand × Option UInt8 × Option Branch) := do
  let operands ← scanOperands m kinds
  let store ← scanIf (op.storesResult version) (Cursor.byte m)
  let branch ← scanIf (op.hasBranch version) (scanBranch m)
  return (operands, store, branch)

theorem movable_scanBody (version : UInt8) (op : Opcode) (kinds : List OperandKind) :
    Movable fun m => scanBody m version op kinds := by
  refine (movable_scanOperands kinds).bind fun operands => ?_
  refine (movable_scanIf _ movable_byte).bind fun store => ?_
  exact (movable_scanIf _ movable_scanBranch).bind fun branch => movable_pure _

/-- The instruction made of its first bytes and of what follows them, if no string does. -/
def ofParts (form : Form) (op : Opcode) (parts : List Operand × Option UInt8 × Option Branch)
    (size : Nat) : Instruction :=
  { opcode := op
    form
    operands := parts.1
    store := parts.2.1
    branch := parts.2.2
    textAddr := none
    size }

/-- **An instruction without a string is decoded from its first bytes and from what follows
them.** -/
theorem decode_eq_ok_of_head {m : Memory} {version : UInt8} {p q : Nat} {form : Form} {op : Opcode}
    {kinds : List OperandKind} {i : Instruction}
    (hhead : scanHead m version p = .ok (form, op, kinds) q) (ht : op.hasText = false) :
    decode m p version = .ok i ↔
      ∃ parts r, scanBody m version op kinds q = .ok parts r ∧ i = ofParts form op parts (r - p) := by
  constructor
  · intro h
    obtain ⟨stop, h⟩ : ∃ stop, scan m version p = .ok i stop := ⟨_, decode_eq_ok.mp h⟩
    obtain ⟨start, r, hstart, h⟩ := Action.bind_eq_ok.mp h
    cases hstart
    obtain ⟨head, r, hhead', h⟩ := Action.bind_eq_ok.mp h
    cases hhead.symm.trans hhead'
    obtain ⟨operands, q₁, hoperands, h⟩ := Action.bind_eq_ok.mp h
    obtain ⟨store, q₂, hstore, h⟩ := Action.bind_eq_ok.mp h
    obtain ⟨branch, q₃, hbranch, h⟩ := Action.bind_eq_ok.mp h
    obtain ⟨textAddr, q₄, htext, h⟩ := Action.bind_eq_ok.mp h
    rw [ht] at htext
    cases htext
    cases h
    refine ⟨(operands, store, branch), stop, ?_, rfl⟩
    refine Action.bind_eq_ok.mpr ⟨operands, q₁, hoperands, ?_⟩
    refine Action.bind_eq_ok.mpr ⟨store, q₂, hstore, ?_⟩
    exact Action.bind_eq_ok.mpr ⟨branch, stop, hbranch, rfl⟩
  · intro h
    obtain ⟨parts, r, hbody, rfl⟩ := h
    obtain ⟨operands, q₁, hoperands, hbody⟩ := Action.bind_eq_ok.mp hbody
    obtain ⟨store, q₂, hstore, hbody⟩ := Action.bind_eq_ok.mp hbody
    obtain ⟨branch, q₃, hbranch, hbody⟩ := Action.bind_eq_ok.mp hbody
    cases hbody
    have htext : scanIf op.hasText (Cursor.text m) r = .ok none r := by
      rw [ht]
      rfl
    have hscan : scan m version p = .ok (ofParts form op (operands, store, branch) (r - p)) r := by
      refine Action.bind_eq_ok.mpr ⟨p, p, rfl, Action.bind_eq_ok.mpr ⟨_, q, hhead, ?_⟩⟩
      refine Action.bind_eq_ok.mpr ⟨operands, q₁, hoperands, ?_⟩
      refine Action.bind_eq_ok.mpr ⟨store, q₂, hstore, ?_⟩
      refine Action.bind_eq_ok.mpr ⟨branch, r, hbranch, ?_⟩
      exact Action.bind_eq_ok.mpr ⟨none, r, htext, rfl⟩
    unfold decode
    rw [hscan]

/-! ## 3. The two forms -/

/-- The kind of an operand of one byte. -/
def byteKind (isVariable : Bool) : OperandKind :=
  if isVariable then .variable else .small

/-- The first byte of an instruction in long form, by its opcode and which operands are
variables. -/
def longByte (number : Fin 32) (first second : Bool) : UInt8 :=
  (if first then 0x40 else 0) + (if second then 0x20 else 0) + UInt8.ofNat number

/-- The first byte of an instruction of the two-operand table in variable form. -/
def variableByte (number : Fin 32) : UInt8 :=
  0xc0 + UInt8.ofNat number

/-- The two bits of an operand slot in a type byte. -/
def slotBits : Option OperandKind → UInt8
  | some .large => 0
  | some .small => 1
  | some .variable => 2
  | none => 3

/-- A byte that types two operands of one byte each and leaves the slot after them empty. What the
last slot holds does not matter then. -/
def typeByte (first second : Bool) (last : Option OperandKind) : UInt8 :=
  slotBits (some (byteKind first)) <<< 6 + slotBits (some (byteKind second)) <<< 4 +
    slotBits none <<< 2 + slotBits last

/-- The opcode with a number in the two-operand table. -/
def twoOperand (number : Fin 32) : Opcode :=
  ⟨.op2, UInt8.ofNat number⟩

theorem kinds_typeByte (first second : Bool) (last : Option OperandKind) :
    kinds (slots (typeByte first second last)) = [byteKind first, byteKind second] := by
  rcases last with _ | _ | _ | _ <;> cases first <;> cases second <;> rfl

theorem longByte_fields (number : Fin 32) (first second : Bool) :
    longByte number first second ≠ 0xbe ∧ longByte number first second < 0x80 ∧
      longByte number first second &&& 0x1f = UInt8.ofNat number ∧
      longKind (longByte number first second &&& 0x40) = byteKind first ∧
      longKind (longByte number first second &&& 0x20) = byteKind second := by
  revert number first second
  decide

theorem variableByte_fields (number : Fin 32) :
    variableByte number ≠ 0xbe ∧ ¬ variableByte number < 0x80 ∧ ¬ variableByte number < 0xc0 ∧
      variableByte number &&& 0x20 = 0 ∧ variableByte number &&& 0x1f = UInt8.ofNat number := by
  revert number
  decide

variable {m m' : Memory} {version : UInt8} {p p' : Nat} {number : Fin 32} {first second : Bool}
  {last : Option OperandKind} {i j : Instruction}

theorem scanHead_long (h : m.readByte p = .ok (longByte number first second)) :
    scanHead m version p =
      .ok (.long, twoOperand number, [byteKind first, byteKind second]) (p + 1) := by
  obtain ⟨hne, hlt, hnumber, hfirst, hsecond⟩ := longByte_fields number first second
  have hform : formOf version (longByte number first second) = .long := by
    unfold formOf
    rw [if_neg hne, if_pos hlt]
  unfold scanHead
  rw [Action.bind_of_ok (byte_eq_ok.mpr ⟨h, rfl⟩), hform]
  dsimp only
  rw [hnumber, hfirst, hsecond]
  rfl

theorem scanHead_variable (h : m.readByte p = .ok (variableByte number))
    (ht : m.readByte (p + 1) = .ok (typeByte first second last)) :
    scanHead m version p =
      .ok (.variable, twoOperand number, [byteKind first, byteKind second]) (p + 2) := by
  obtain ⟨hne, h₁, h₂, hbit, hnumber⟩ := variableByte_fields number
  have hform : formOf version (variableByte number) = .variable := by
    unfold formOf
    rw [if_neg hne, if_neg h₁, if_neg h₂]
  unfold scanHead
  rw [Action.bind_of_ok (byte_eq_ok.mpr ⟨h, rfl⟩), hform]
  dsimp only
  rw [hbit, hnumber, Action.bind_of_ok (byte_eq_ok.mpr ⟨ht, rfl⟩)]
  have hone : hasTwoTypeBytes (twoOperand number) = false := rfl
  rw [if_pos rfl]
  show (if hasTwoTypeBytes (twoOperand number) = true then _ else _ : Cursor _) _ = _
  rw [hone, if_neg Bool.false_ne_true, kinds_typeByte]
  rfl

/-- **Instructions whose first bytes say the same, and are followed by the same bytes, are the
same** up to form and size. -/
theorem decode_of_heads {form form' : Form} {op : Opcode} {kinds : List OperandKind} {w w' : Nat}
    (hhead : scanHead m version p = .ok (form, op, kinds) (p + w))
    (hhead' : scanHead m' version p' = .ok (form', op, kinds) (p' + w')) (ht : op.hasText = false)
    (h : decode m p version = .ok i) (hrow : m.SameRow (p + w) m' (p' + w') (i.size - w)) :
    ∃ n, i.form = form ∧ i.size = w + n ∧
      decode m' p' version = .ok { i with form := form', size := w' + n } := by
  obtain ⟨parts, r, hbody, rfl⟩ := (decode_eq_ok_of_head hhead ht).mp h
  obtain ⟨n, rfl, hmoved⟩ := (movable_scanBody version op kinds).moved hbody
  have hsize : p + w + n - p = w + n := by omega
  have hn : (ofParts form op parts (p + w + n - p)).size - w = n := by
    show p + w + n - p - w = n
    omega
  rw [hn] at hrow
  refine ⟨n, rfl, hsize, (decode_eq_ok_of_head hhead' ht).mpr ?_⟩
  refine ⟨parts, p' + w' + n, hmoved hrow, ?_⟩
  rw [show p' + w' + n - p' = w' + n by omega]
  rfl

/-- The instruction as it is decoded from its variable form instead of its long one. -/
def inVariableForm (i : Instruction) : Instruction :=
  { i with form := .variable, size := i.size + 1 }

/-- From the long form to the variable one. -/
theorem decode_inVariableForm (hlong : m.readByte p = .ok (longByte number first second))
    (hvariable : m'.readByte p' = .ok (variableByte number))
    (htypes : m'.readByte (p' + 1) = .ok (typeByte first second last))
    (h : decode m p version = .ok i) (hrow : m.SameRow (p + 1) m' (p' + 2) (i.size - 1)) :
    decode m' p' version = .ok i.inVariableForm := by
  obtain ⟨n, -, hsize, hd⟩ :=
    decode_of_heads (scanHead_long hlong) (scanHead_variable hvariable htypes) rfl h hrow
  rw [hd, inVariableForm, hsize]
  congr 2
  omega

/-- And back. -/
theorem decode_ofVariableForm (hlong : m.readByte p = .ok (longByte number first second))
    (hvariable : m'.readByte p' = .ok (variableByte number))
    (htypes : m'.readByte (p' + 1) = .ok (typeByte first second last))
    (h : decode m' p' version = .ok j) (hrow : m'.SameRow (p' + 2) m (p + 1) (j.size - 2)) :
    ∃ i, decode m p version = .ok i ∧ j = i.inVariableForm := by
  obtain ⟨n, hform, hsize, hd⟩ :=
    decode_of_heads (scanHead_variable hvariable htypes) (scanHead_long hlong) rfl h hrow
  refine ⟨_, hd, ?_⟩
  unfold inVariableForm
  dsimp only
  rw [← hform, show 1 + n + 1 = j.size by omega]

theorem long_of_decode (hlong : m.readByte p = .ok (longByte number first second))
    (h : decode m p version = .ok i) : i.form = .long ∧ i.opcode = twoOperand number := by
  obtain ⟨parts, r, -, rfl⟩ := (decode_eq_ok_of_head (scanHead_long hlong) rfl).mp h
  exact ⟨rfl, rfl⟩

end Instruction

/-! ## 4. Execution -/

variable {H : Host}

/-- **No operation depends on how its instruction is written**: on its form or its size. -/
theorem Operation.perform_written (op : Operation) (i : Instruction) (form : Form) (size : Nat)
    (args : List Word) :
    (op.perform { i with form, size } args : Exec H Flow) = op.perform i args := by
  cases op <;> rfl

namespace Session

open ZMachine.Action

variable {s : Session H} {i : Instruction}

theorem execute_of_unknown (h : Operation.standard.lookup i.opcode s.machine.version = none) :
    execute i s = .error (.unknownOpcode i.opcode.number i.form i.opcode.count) s := by
  unfold execute
  rw [get_bind, h]
  rfl

theorem execute_written (form : Form) (size : Nat)
    (h : Operation.standard.lookup i.opcode s.machine.version ≠ none) :
    execute { i with form, size } s = execute i s := by
  unfold execute
  rw [get_bind, get_bind]
  cases hl : Operation.standard.lookup i.opcode s.machine.version with
  | none => exact absurd hl h
  | some op =>
      have hp : (fun args => (op.perform { i with form, size } args : Exec H Flow)) =
          fun args => op.perform i args := funext (op.perform_written i form size)
      show (onMachine (Machine.resolve i.operands) >>= fun args =>
        op.perform { i with form, size } args) s = _
      rw [hp]

/-! ## 5. Both together -/

open Instruction

/-- **The two forms of a two-operand instruction mean the same.** Where the first byte of the one,
and the first two bytes of the other, tell the same opcode and the same kinds of operands, and the
same operand bytes and bytes behind them follow, both are decoded or neither is, and to instructions
that differ in form and size only. Executed in any session, the two lead to the same result and the
same session; an opcode that means nothing is reported with the form it has. -/
theorem forms_alike {m m' : Memory} {p p' : Nat} (version : UInt8) (number : Fin 32)
    (first second : Bool) (last : Option OperandKind)
    (hlong : m.readByte p = .ok (longByte number first second))
    (hvariable : m'.readByte p' = .ok (variableByte number))
    (htypes : m'.readByte (p' + 1) = .ok (typeByte first second last)) :
    (∀ i, decode m p version = .ok i → m.SameRow (p + 1) m' (p' + 2) (i.size - 1) →
      decode m' p' version = .ok i.inVariableForm) ∧
    (∀ j, decode m' p' version = .ok j → m'.SameRow (p' + 2) m (p + 1) (j.size - 2) →
      ∃ i, decode m p version = .ok i ∧ j = i.inVariableForm) ∧
    ∀ i, decode m p version = .ok i → ∀ (H : Host) (s : Session H),
      (Operation.standard.lookup (twoOperand number) s.machine.version = none →
        execute i s = .error (.unknownOpcode (UInt8.ofNat number) .long .op2) s ∧
        execute i.inVariableForm s =
          .error (.unknownOpcode (UInt8.ofNat number) .variable .op2) s) ∧
      (Operation.standard.lookup (twoOperand number) s.machine.version ≠ none →
        execute i.inVariableForm s = execute i s) := by
  refine ⟨fun i h hrow => decode_inVariableForm hlong hvariable htypes h hrow,
    fun j h hrow => decode_ofVariableForm hlong hvariable htypes h hrow, ?_⟩
  intro i h H s
  obtain ⟨hform, hopcode⟩ := long_of_decode hlong h
  have hop : i.inVariableForm.opcode = twoOperand number := hopcode
  refine ⟨fun hn => ⟨?_, ?_⟩, fun hn => ?_⟩
  · rw [execute_of_unknown (hopcode ▸ hn), hopcode, hform]
    rfl
  · rw [execute_of_unknown (hop ▸ hn), hop]
    rfl
  · exact execute_written .variable (i.size + 1) (hopcode ▸ hn)

/-- A comparison of the top of the stack with a constant, with a branch of two bytes. -/
def comparing : Memory :=
  ⟨#[0x41, 0, 5, 0x80, 0x10]⟩

/-- The same in variable form, a byte further on. -/
def comparingTyped : Memory :=
  ⟨#[0xff, 0xc1, 0x9e, 0, 5, 0x80, 0x10]⟩

theorem comparing_alike :
    ∃ i, decode comparing 0 5 = .ok i ∧ i.size = 5 ∧
      decode comparingTyped 1 5 = .ok i.inVariableForm ∧
      execute i.inVariableForm (bare { (default : Machine) with version := 5, stack := [5] }) =
        execute i (bare { (default : Machine) with version := 5, stack := [5] }) := by
  have h : decode comparing 0 5 = .ok _ := rfl
  have hrow : ∀ k < 4, comparingTyped.bytes[1 + 2 + k]? = comparing.bytes[0 + 1 + k]? := by decide
  obtain ⟨hto, -, hexecute⟩ := forms_alike 5 1 true false
    (some .variable) (rfl : comparing.readByte 0 = _) (rfl : comparingTyped.readByte 1 = _) rfl
  exact ⟨_, h, rfl, hto _ h hrow, (hexecute _ h _ _).2 (by decide)⟩

end Session

end ZMachine
