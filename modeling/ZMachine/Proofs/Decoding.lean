import Mathlib.Algebra.GroupWithZero.Nat
import ZMachine.Instruction.Decode
import ZMachine.Proofs.Action
import ZMachine.Proofs.Memory

/-!
# Instructions take exactly their own bytes

A reader of memory is exact if it reads the bytes it moves past and no others: it never moves back,
what it passes lies in memory, the same bytes elsewhere give the same answer, and the end of memory
is all that stops it.

* `Cursor.Exact`                      : exact readers; a sequence of them is exact.
* `Instruction.exact_scan`            : the instruction reader is exact.
* `Instruction.typingBytes`, `Instruction.Layout` : the parts an instruction is made of.
* `Instruction.decode_exact`          : decoding, as a whole.
-/

namespace ZMachine

/-! ## 1. Exact readers -/

namespace Cursor

variable {α β : Type}

/-- The reader reads exactly the bytes it moves past. -/
structure Exact (read : Memory → Cursor α) : Prop where
  /-- It never moves back. -/
  forward : ∀ {m p a q}, read m p = .ok a q → p ≤ q
  /-- What it moves past lies in memory. -/
  bounded : ∀ {m p a q}, read m p = .ok a q → p < q → q ≤ m.size
  /-- Another memory with the same bytes there gives the same answer. -/
  agree : ∀ {m m' p a q}, read m p = .ok a q → m.AgreeOn m' p q → read m' p = .ok a q
  /-- Only the end of memory stops it. -/
  stopped : ∀ {m p e q}, read m p = .error e q → e.IsOutOfRange

/-- **An exact reader fails on a memory cut short before the end of what it read.** If it did not,
what it read would lie in the shorter memory, and the whole memory would give the same answer. -/
theorem Exact.truncated {read : Memory → Cursor α} (hr : Exact read) {m : Memory} {p q n : Nat}
    {a : α} (h : read m p = .ok a q) (hpq : p < q) (hn : n < q) :
    ∃ e q', read (m.truncate n) p = .error e q' := by
  cases ht : read (m.truncate n) p with
  | error e q' => exact ⟨e, q', rfl⟩
  | ok a' q' =>
      exfalso
      have hle : p = q' ∨ q' ≤ n := by
        rcases Nat.eq_or_lt_of_le (hr.forward ht) with he | hlt
        · exact .inl he
        · exact .inr (Nat.le_trans (hr.bounded ht hlt) (m.size_truncate_le n))
      have hag : (m.truncate n).AgreeOn m p q' := by
        intro addr h₁ h₂
        exact ((m.agreeOn_truncate p n).symm) addr h₁ (by omega)
      have hm := hr.agree ht hag
      rw [h] at hm
      cases hm
      omega

theorem exact_pure (a : α) : Exact fun _ => (pure a : Cursor α) where
  forward h := by cases h; exact Nat.le_refl _
  bounded h hlt := by cases h; exact absurd hlt (Nat.lt_irrefl _)
  agree h _ := by cases h; rfl
  stopped h := by cases h

theorem exact_place : Exact fun _ => (get : Cursor Nat) where
  forward h := by cases h; exact Nat.le_refl _
  bounded h hlt := by cases h; exact absurd hlt (Nat.lt_irrefl _)
  agree h _ := by cases h; rfl
  stopped h := by cases h

/-- **A sequence of exact readers is exact.** -/
theorem Exact.bind {x : Memory → Cursor α} {f : Memory → α → Cursor β} (hx : Exact x)
    (hf : ∀ a, Exact fun m => f m a) : Exact fun m => x m >>= f m where
  forward h := by
    obtain ⟨a, r, h₁, h₂⟩ := Action.bind_eq_ok.mp h
    exact Nat.le_trans (hx.forward h₁) ((hf a).forward h₂)
  bounded h hlt := by
    obtain ⟨a, r, h₁, h₂⟩ := Action.bind_eq_ok.mp h
    rcases Nat.eq_or_lt_of_le ((hf a).forward h₂) with he | hr
    · subst he
      exact hx.bounded h₁ hlt
    · exact (hf a).bounded h₂ hr
  agree h hag := by
    obtain ⟨a, r, h₁, h₂⟩ := Action.bind_eq_ok.mp h
    have hpr := hx.forward h₁
    have hrq := (hf a).forward h₂
    have h₁' := hx.agree h₁ (hag.mono (Nat.le_refl _) hrq)
    have h₂' := (hf a).agree h₂ (hag.mono hpr (Nat.le_refl _))
    exact Action.bind_eq_ok.mpr ⟨a, r, h₁', h₂'⟩
  stopped h := by
    rcases Action.bind_eq_error.mp h with h₁ | ⟨a, r, _, h₂⟩
    · exact hx.stopped h₁
    · exact (hf a).stopped h₂

theorem Exact.ite {x y : Memory → Cursor α} {c : Prop} [Decidable c] (hx : Exact x)
    (hy : Exact y) : Exact fun m => if c then x m else y m := by
  by_cases h : c
  · simpa only [if_pos h] using hx
  · simpa only [if_neg h] using hy

/-! ## 2. Bytes, words and strings -/

theorem byte_eq_ok {m : Memory} {p q : Nat} {b : UInt8} :
    byte m p = .ok b q ↔ m.readByte p = .ok b ∧ p + 1 = q := by
  unfold byte
  rw [Action.get_bind, Action.lift_bind_eq_ok]
  constructor
  · intro h
    obtain ⟨_, h, heq⟩ := h
    cases heq
    exact ⟨h, rfl⟩
  · intro h
    obtain ⟨h, rfl⟩ := h
    exact ⟨_, h, rfl⟩

theorem exact_byte : Exact byte where
  forward h := by
    obtain ⟨-, rfl⟩ := byte_eq_ok.mp h
    exact Nat.le_succ _
  bounded h _ := by
    obtain ⟨hb, rfl⟩ := byte_eq_ok.mp h
    exact Memory.lt_size_of_readByte hb
  agree h hag := by
    obtain ⟨hb, rfl⟩ := byte_eq_ok.mp h
    exact byte_eq_ok.mpr ⟨Memory.readByte_agree hb hag, rfl⟩
  stopped h := by
    unfold byte at h
    rw [Action.get_bind, Action.lift_bind_eq_error] at h
    rcases h with ⟨h, -⟩ | ⟨b, -, h⟩
    · exact Memory.readByte_error h
    · cases h

theorem word_eq_ok {m : Memory} {p q : Nat} {w : Word} :
    word m p = .ok w q ↔ m.readWord p = .ok w ∧ p + 2 = q := by
  unfold word
  rw [Action.get_bind, Action.lift_bind_eq_ok]
  constructor
  · intro h
    obtain ⟨_, h, heq⟩ := h
    cases heq
    exact ⟨h, rfl⟩
  · intro h
    obtain ⟨h, rfl⟩ := h
    exact ⟨_, h, rfl⟩

theorem exact_word : Exact word where
  forward h := by
    obtain ⟨-, rfl⟩ := word_eq_ok.mp h
    exact Nat.le_add_right _ _
  bounded h _ := by
    obtain ⟨hw, rfl⟩ := word_eq_ok.mp h
    exact Memory.lt_size_of_readWord hw
  agree h hag := by
    obtain ⟨hw, rfl⟩ := word_eq_ok.mp h
    exact word_eq_ok.mpr ⟨Memory.readWord_agree hw hag, rfl⟩
  stopped h := by
    unfold word at h
    rw [Action.get_bind, Action.lift_bind_eq_error] at h
    rcases h with ⟨h, -⟩ | ⟨w, -, h⟩
    · exact Memory.readWord_error h
    · cases h

end Cursor

namespace ZString

variable {m m' : Memory} {addr stop : Nat}

/-- The end of a string lies in memory, at least a word behind its start. -/
theorem stringEnd_bounds (h : stringEnd m addr = .ok stop) : addr + 2 ≤ stop ∧ stop ≤ m.size := by
  fun_induction stringEnd m addr with
  | case1 addr e he => cases h
  | case2 addr w hw hlast =>
      cases h
      exact ⟨Nat.le_refl _, Memory.lt_size_of_readWord hw⟩
  | case3 addr w hw hlast ih =>
      have := ih h
      omega

theorem stringEnd_of_readWord {w : Word} (h : m.readWord addr = .ok w) :
    stringEnd m addr = if isLast w then .ok (addr + 2) else stringEnd m (addr + 2) := by
  rw [stringEnd]
  split
  · rename_i e he
    rw [h] at he
    cases he
  · rename_i w' hw'
    rw [h] at hw'
    cases hw'
    rfl

/-- The end of a string depends on its own words only. -/
theorem stringEnd_agree (h : stringEnd m addr = .ok stop) (ha : m.AgreeOn m' addr stop) :
    stringEnd m' addr = .ok stop := by
  fun_induction stringEnd m addr with
  | case1 addr e he => cases h
  | case2 addr w hw hlast =>
      cases h
      rw [stringEnd_of_readWord (Memory.readWord_agree hw ha), if_pos hlast]
  | case3 addr w hw hlast ih =>
      have hb := stringEnd_bounds h
      have hw' := Memory.readWord_agree hw (ha.mono (Nat.le_refl _) (by omega))
      rw [stringEnd_of_readWord hw', if_neg hlast]
      exact ih h (ha.mono (by omega) (Nat.le_refl _))

theorem stringEnd_error {e : Fault} (h : stringEnd m addr = .error e) : e.IsOutOfRange := by
  fun_induction stringEnd m addr with
  | case1 addr e' he =>
      cases h
      exact Memory.readWord_error he
  | case2 addr w hw hlast => cases h
  | case3 addr w hw hlast ih => exact ih h

/-- The length of a string leads from its start to its end. -/
theorem encodedLength_eq_ok {length : Nat} :
    encodedLength m addr = .ok length ↔ stringEnd m addr = .ok (addr + length) := by
  unfold encodedLength
  cases h : stringEnd m addr with
  | error e =>
      constructor
      · intro h
        cases h
      · intro h
        cases h
  | ok stop =>
      have hb := stringEnd_bounds h
      constructor
      · intro h
        cases h
        rw [show addr + (stop - addr) = stop by omega]
      · intro h
        cases h
        show Except.ok (addr + length - addr) = _
        rw [Nat.add_sub_cancel_left]

theorem encodedLength_error {e : Fault} (h : encodedLength m addr = .error e) :
    e.IsOutOfRange := by
  unfold encodedLength at h
  cases hs : stringEnd m addr with
  | error e' =>
      rw [hs] at h
      cases h
      exact stringEnd_error hs
  | ok stop => rw [hs] at h; cases h

end ZString

namespace Cursor

theorem text_eq_ok {m : Memory} {p q start : Nat} :
    text m p = .ok start q ↔ ZString.stringEnd m p = .ok q ∧ p = start := by
  unfold text
  rw [Action.get_bind, Action.lift_bind_eq_ok]
  constructor
  · intro h
    obtain ⟨length, h, heq⟩ := h
    cases heq
    exact ⟨ZString.encodedLength_eq_ok.mp h, rfl⟩
  · intro h
    obtain ⟨h, rfl⟩ := h
    have hb := ZString.stringEnd_bounds h
    refine ⟨q - p, ZString.encodedLength_eq_ok.mpr ?_, ?_⟩
    · rw [show p + (q - p) = q by omega, h]
    · show EStateM.Result.ok p (p + (q - p)) = _
      rw [show p + (q - p) = q by omega]

theorem exact_text : Exact text where
  forward h := by
    have := ZString.stringEnd_bounds (text_eq_ok.mp h).1
    omega
  bounded h _ := (ZString.stringEnd_bounds (text_eq_ok.mp h).1).2
  agree h hag := by
    obtain ⟨hs, hp⟩ := text_eq_ok.mp h
    exact text_eq_ok.mpr ⟨ZString.stringEnd_agree hs hag, hp⟩
  stopped h := by
    unfold text at h
    rw [Action.get_bind, Action.lift_bind_eq_error] at h
    rcases h with ⟨h, -⟩ | ⟨length, -, h⟩
    · exact ZString.encodedLength_error h
    · cases h

end Cursor

/-! ## 3. The parts of an instruction -/

namespace Instruction

open Cursor

theorem exact_scanHead (version : UInt8) : Exact fun m => scanHead m version := by
  refine exact_byte.bind fun first => ?_
  match formOf version first with
  | .long => exact exact_pure _
  | .short =>
      match OperandKind.ofBits? (first >>> 4) with
      | none => exact exact_pure _
      | some kind => exact exact_pure _
  | .variable =>
      refine exact_byte.bind fun types => ?_
      exact Exact.ite (exact_byte.bind fun more => exact_pure _) (exact_pure _)
  | .extended =>
      refine exact_byte.bind fun number => ?_
      exact exact_byte.bind fun types => exact_pure _

theorem exact_scanOperand (kind : OperandKind) : Exact fun m => scanOperand m kind := by
  match kind with
  | .large => exact exact_word.bind fun w => exact_pure _
  | .small | .variable => exact exact_byte.bind fun b => exact_pure _

theorem exact_scanOperands : ∀ kinds : List OperandKind, Exact fun m => scanOperands m kinds
  | [] => exact_pure _
  | kind :: rest =>
      (exact_scanOperand kind).bind fun _ => (exact_scanOperands rest).bind fun _ => exact_pure _

theorem exact_scanBranch : Exact scanBranch := by
  refine exact_byte.bind fun first => ?_
  exact Exact.ite (exact_pure _) (exact_byte.bind fun low => exact_pure _)

theorem exact_scanIf {α : Type} {read : Memory → Cursor α} (present : Bool) (h : Exact read) :
    Exact fun m => scanIf present (read m) := by
  unfold scanIf
  cases present with
  | true => exact h.bind fun a => exact_pure (some a)
  | false => exact exact_pure none

/-- **The instruction reader is exact.** -/
theorem exact_scan (version : UInt8) : Exact fun m => scan m version := by
  refine exact_place.bind fun start => ?_
  refine (exact_scanHead version).bind fun head => ?_
  refine (exact_scanOperands head.2.2).bind fun operands => ?_
  refine (exact_scanIf _ exact_byte).bind fun store => ?_
  refine (exact_scanIf _ exact_scanBranch).bind fun branch => ?_
  refine (exact_scanIf _ exact_text).bind fun textAddr => ?_
  exact exact_place.bind fun stop => exact_pure _

/-! ## 4. Where the parts end -/

/-- The bytes between the first one and the operands: those that type the operands, and the number
of an extended opcode. -/
def typingBytes (form : Form) (op : Opcode) : Nat :=
  match form with
  | .long | .short => 0
  | .variable => if hasTwoTypeBytes op then 2 else 1
  | .extended => 2

theorem length_kinds_le : ∀ slots, (kinds slots).length ≤ slots.length
  | [] => Nat.le_refl 0
  | none :: _ => Nat.zero_le _
  | some _ :: rest => Nat.succ_le_succ (length_kinds_le rest)

theorem scanHead_end {m : Memory} {version : UInt8} {p q : Nat} {form : Form} {op : Opcode}
    {kinds : List OperandKind} (h : scanHead m version p = .ok (form, op, kinds) q) :
    q = p + 1 + typingBytes form op ∧ kinds.length ≤ 8 := by
  obtain ⟨first, r, hfirst, h⟩ := Action.bind_eq_ok.mp h
  obtain ⟨-, rfl⟩ := byte_eq_ok.mp hfirst
  revert h
  match formOf version first with
  | .long =>
      rintro ⟨⟩
      exact ⟨rfl, by simp⟩
  | .short =>
      dsimp only
      match OperandKind.ofBits? (first >>> 4) with
      | none =>
          rintro ⟨⟩
          exact ⟨rfl, by decide⟩
      | some kind =>
          rintro ⟨⟩
          exact ⟨rfl, by simp⟩
  | .variable =>
      intro h
      obtain ⟨types, r, htypes, h⟩ := Action.bind_eq_ok.mp h
      obtain ⟨-, rfl⟩ := byte_eq_ok.mp htypes
      by_cases htwo : hasTwoTypeBytes ⟨if first &&& 0x20 = 0 then .op2 else .var, first &&& 0x1f⟩
      · rw [if_pos htwo] at h
        obtain ⟨more, r, hmore, h⟩ := Action.bind_eq_ok.mp h
        obtain ⟨-, rfl⟩ := byte_eq_ok.mp hmore
        cases h
        refine ⟨?_, length_kinds_le _⟩
        rw [typingBytes, if_pos htwo]
      · rw [if_neg htwo] at h
        cases h
        refine ⟨?_, Nat.le_trans (length_kinds_le _) (by simp [slots])⟩
        rw [typingBytes, if_neg htwo]
  | .extended =>
      intro h
      obtain ⟨number, r, hnumber, h⟩ := Action.bind_eq_ok.mp h
      obtain ⟨-, rfl⟩ := byte_eq_ok.mp hnumber
      obtain ⟨types, r, htypes, h⟩ := Action.bind_eq_ok.mp h
      obtain ⟨-, rfl⟩ := byte_eq_ok.mp htypes
      cases h
      exact ⟨rfl, Nat.le_trans (length_kinds_le _) (by simp [slots])⟩

theorem scanOperand_end {m : Memory} {kind : OperandKind} {p q : Nat} {o : Operand}
    (h : scanOperand m kind p = .ok o q) : q = p + kind.width ∧ o.kind = kind := by
  match kind with
  | .large =>
      obtain ⟨w, r, hw, h⟩ := Action.bind_eq_ok.mp h
      obtain ⟨-, rfl⟩ := word_eq_ok.mp hw
      cases h
      exact ⟨rfl, rfl⟩
  | .small | .variable =>
      obtain ⟨b, r, hb, h⟩ := Action.bind_eq_ok.mp h
      obtain ⟨-, rfl⟩ := byte_eq_ok.mp hb
      cases h
      exact ⟨rfl, rfl⟩

theorem scanOperands_end : ∀ {m : Memory} {kinds : List OperandKind} {p q : Nat}
    {operands : List Operand}, scanOperands m kinds p = .ok operands q →
      q = p + (operands.map (·.kind.width)).sum ∧ operands.length = kinds.length
  | _, [], _, _, _, h => by
      cases h
      exact ⟨rfl, rfl⟩
  | _, kind :: rest, _, _, _, h => by
      obtain ⟨o, r, ho, h⟩ := Action.bind_eq_ok.mp h
      obtain ⟨os, r', hos, h⟩ := Action.bind_eq_ok.mp h
      cases h
      obtain ⟨rfl, rfl⟩ := scanOperand_end ho
      obtain ⟨rfl, hlen⟩ := scanOperands_end hos
      constructor
      · rw [List.map_cons, List.sum_cons, Nat.add_assoc]
      · rw [List.length_cons, List.length_cons, hlen]

theorem scanBranch_end {m : Memory} {p q : Nat} {b : Branch} (h : scanBranch m p = .ok b q) :
    q = p + 1 ∨ q = p + 2 := by
  obtain ⟨first, r, hfirst, h⟩ := Action.bind_eq_ok.mp h
  obtain ⟨-, rfl⟩ := byte_eq_ok.mp hfirst
  split at h
  · cases h
    exact .inl rfl
  · obtain ⟨low, r, hlow, h⟩ := Action.bind_eq_ok.mp h
    obtain ⟨-, rfl⟩ := byte_eq_ok.mp hlow
    cases h
    exact .inr rfl

/-- What is read only if it is there is either left out, or read. -/
theorem scanIf_eq_ok {α : Type} {present : Bool} {read : Cursor α} {p q : Nat} {a : Option α}
    (h : scanIf present read p = .ok a q) :
    (a = none ∧ q = p) ∨ ∃ b, a = some b ∧ read p = .ok b q := by
  unfold scanIf at h
  cases present with
  | true =>
      obtain ⟨b, r, hb, h⟩ := Action.bind_eq_ok.mp h
      cases h
      exact .inr ⟨b, rfl, hb⟩
  | false =>
      cases h
      exact .inl ⟨rfl, rfl⟩

theorem scanStore_end {m : Memory} {present : Bool} {p q : Nat} {store : Option UInt8}
    (h : scanIf present (byte m) p = .ok store q) : q = p + (if store.isSome then 1 else 0) := by
  rcases scanIf_eq_ok h with ⟨rfl, rfl⟩ | ⟨b, rfl, hb⟩
  · rfl
  · exact (byte_eq_ok.mp hb).2.symm

theorem scanBranchIf_end {m : Memory} {present : Bool} {p q : Nat} {branch : Option Branch}
    (h : scanIf present (scanBranch m) p = .ok branch q) :
    ∃ n, q = p + n ∧ if branch.isSome then n = 1 ∨ n = 2 else n = 0 := by
  rcases scanIf_eq_ok h with ⟨rfl, rfl⟩ | ⟨b, rfl, hb⟩
  · exact ⟨0, rfl, rfl⟩
  · rcases scanBranch_end hb with rfl | rfl
    · exact ⟨1, rfl, .inl rfl⟩
    · exact ⟨2, rfl, .inr rfl⟩

/-- The bytes of an inline string, if there is one: as many as its encoded form has. -/
def TextBytes (m : Memory) (textAddr : Option Nat) (n : Nat) : Prop :=
  match textAddr with
  | some addr => ZString.encodedLength m addr = .ok n
  | none => n = 0

theorem scanTextIf_end {m : Memory} {present : Bool} {p q : Nat} {textAddr : Option Nat}
    (h : scanIf present (text m) p = .ok textAddr q) :
    ∃ n, q = p + n ∧ TextBytes m textAddr n := by
  rcases scanIf_eq_ok h with ⟨rfl, rfl⟩ | ⟨start, rfl, ht⟩
  · exact ⟨0, rfl, rfl⟩
  · obtain ⟨hend, rfl⟩ := text_eq_ok.mp ht
    have hb := ZString.stringEnd_bounds hend
    refine ⟨q - p, by omega, ZString.encodedLength_eq_ok.mpr ?_⟩
    rw [hend, show p + (q - p) = q by omega]

/-! ## 5. Whole instructions -/

/-- The parts of an instruction in memory: their widths make up its size. -/
structure Layout (m : Memory) (i : Instruction) (branchBytes textBytes : Nat) : Prop where
  size : i.size = 1 + typingBytes i.form i.opcode + (i.operands.map (·.kind.width)).sum +
    (if i.store.isSome then 1 else 0) + branchBytes + textBytes
  /-- A branch takes one byte or two. -/
  branch : if i.branch.isSome then branchBytes = 1 ∨ branchBytes = 2 else branchBytes = 0
  text : TextBytes m i.textAddr textBytes

theorem scan_layout {m : Memory} {version : UInt8} {p q : Nat} {i : Instruction}
    (h : scan m version p = .ok i q) :
    q = p + i.size ∧ i.operands.length ≤ 8 ∧
      ∃ branchBytes textBytes, Layout m i branchBytes textBytes := by
  obtain ⟨start, r, hstart, h⟩ := Action.bind_eq_ok.mp h
  cases hstart
  obtain ⟨⟨form, op, kinds⟩, q₁, hhead, h⟩ := Action.bind_eq_ok.mp h
  obtain ⟨operands, q₂, hoperands, h⟩ := Action.bind_eq_ok.mp h
  obtain ⟨store, q₃, hstore, h⟩ := Action.bind_eq_ok.mp h
  obtain ⟨branch, q₄, hbranch, h⟩ := Action.bind_eq_ok.mp h
  obtain ⟨textAddr, q₅, htext, h⟩ := Action.bind_eq_ok.mp h
  cases h
  obtain ⟨e₁, hkinds⟩ := scanHead_end hhead
  obtain ⟨e₂, hlength⟩ := scanOperands_end hoperands
  have e₃ := scanStore_end hstore
  obtain ⟨branchBytes, e₄, hb⟩ := scanBranchIf_end hbranch
  obtain ⟨textBytes, e₅, ht⟩ := scanTextIf_end htext
  refine ⟨?_, Nat.le_trans (Nat.le_of_eq hlength) hkinds, branchBytes, textBytes, ⟨?_, hb, ht⟩⟩
  · show q = p + (q - p)
    omega
  · show q - p = _
    dsimp only
    omega

theorem decode_eq_ok {m : Memory} {addr : Nat} {version : UInt8} {i : Instruction} :
    decode m addr version = .ok i ↔ scan m version addr = .ok i (addr + i.size) := by
  unfold decode
  constructor
  · intro h
    cases hs : scan m version addr with
    | ok j q =>
        rw [hs] at h
        cases h
        rw [← (scan_layout hs).1]
    | error e q => rw [hs] at h; cases h
  · intro h
    rw [h]

theorem decode_eq_error {m : Memory} {addr : Nat} {version : UInt8} {e : Fault} :
    decode m addr version = .error e ↔ ∃ q, scan m version addr = .error e q := by
  unfold decode
  constructor
  · intro h
    cases hs : scan m version addr with
    | ok j q => rw [hs] at h; cases h
    | error e' q =>
        rw [hs] at h
        cases h
        exact ⟨q, rfl⟩
  · intro h
    obtain ⟨q, h⟩ := h
    rw [h]

theorem size_pos_of_decode {m : Memory} {addr : Nat} {version : UInt8} {i : Instruction}
    (h : decode m addr version = .ok i) : 1 ≤ i.size := by
  obtain ⟨-, -, branchBytes, textBytes, hl⟩ := scan_layout (decode_eq_ok.mp h)
  have := hl.size
  omega

/-- An instruction lies in memory as a whole. -/
theorem end_le_of_decode {m : Memory} {addr : Nat} {version : UInt8} {i : Instruction}
    (h : decode m addr version = .ok i) : addr + i.size ≤ m.size := by
  have hpos := size_pos_of_decode h
  exact (exact_scan version).bounded (decode_eq_ok.mp h) (by omega)

/-- An instruction depends on its own bytes only. -/
theorem decode_agree {m m' : Memory} {addr : Nat} {version : UInt8} {i : Instruction}
    (h : decode m addr version = .ok i) (ha : m.AgreeOn m' addr (addr + i.size)) :
    decode m' addr version = .ok i :=
  decode_eq_ok.mpr ((exact_scan version).agree (decode_eq_ok.mp h) ha)

theorem decode_error {m : Memory} {addr : Nat} {version : UInt8} {e : Fault}
    (h : decode m addr version = .error e) : e.IsOutOfRange := by
  obtain ⟨q, h⟩ := decode_eq_error.mp h
  exact (exact_scan version).stopped h

/-- **An instruction takes exactly its own bytes.** Decoding fails only at the end of memory; when
it succeeds, the size it reports is made up of the parts of the instruction, the instruction lies in
memory, any memory with the same bytes there holds the same instruction, and no memory that ends
before them does. -/
theorem decode_exact (m : Memory) (addr : Nat) (version : UInt8) :
    (∀ e, decode m addr version = .error e → e.IsOutOfRange) ∧
    ∀ i, decode m addr version = .ok i →
      1 ≤ i.size ∧ addr + i.size ≤ m.size ∧ i.operands.length ≤ 8 ∧
      (∃ branchBytes textBytes, Layout m i branchBytes textBytes) ∧
      (∀ m', addr + i.size ≤ m'.size → m.AgreeOn m' addr (addr + i.size) →
        decode m' addr version = .ok i) ∧
      ∀ n, n < addr + i.size →
        ∃ e, decode (m.truncate n) addr version = .error e ∧ e.IsOutOfRange := by
  refine ⟨fun e => decode_error, fun i h => ?_⟩
  have hpos := size_pos_of_decode h
  obtain ⟨-, hoperands, hlayout⟩ := scan_layout (decode_eq_ok.mp h)
  refine ⟨hpos, end_le_of_decode h, hoperands, hlayout, fun m' _ => decode_agree h, ?_⟩
  intro n hn
  obtain ⟨e, q, he⟩ := (exact_scan version).truncated (decode_eq_ok.mp h) (by omega) hn
  have hd : decode (m.truncate n) addr version = .error e := decode_eq_error.mpr ⟨q, he⟩
  exact ⟨e, hd, decode_error hd⟩

/-- A call with eight operands, whose kinds take two bytes. -/
def eightOperands : Memory :=
  ⟨#[0xec, 0x55, 0x55, 1, 2, 3, 4, 5, 6, 7, 8, 0x10]⟩

theorem eightOperands_exact :
    ∃ i, decode eightOperands 0 5 = .ok i ∧ i.size = 12 ∧ i.operands.length = 8 ∧
      (∃ branchBytes textBytes, Layout eightOperands i branchBytes textBytes) ∧
      ∀ n, n < 0 + i.size →
        ∃ e, decode (eightOperands.truncate n) 0 5 = .error e ∧ e.IsOutOfRange := by
  have h : decode eightOperands 0 5 = .ok _ := rfl
  obtain ⟨-, -, -, hlayout, -, hshort⟩ := (decode_exact eightOperands 0 5).2 _ h
  exact ⟨_, h, rfl, rfl, hlayout, hshort⟩

end Instruction

end ZMachine
