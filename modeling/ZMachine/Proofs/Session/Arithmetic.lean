import Mathlib.Data.Rat.Floor
import ZMachine.Proofs.Machine.Operands
import ZMachine.Proofs.Session.Step

/-!
# Arithmetic on words and on integers

Each arithmetic instruction computes with the integers that its words stand for, without a bound,
and delivers the result modulo `2 ^ 16`. Sums, products, quotients and remainders read both words as
signed; shifts multiply by a power of two, positive or negative, and round down.

* `Word.signed`, `Word.ofInt_signed`  : the signed reading, and the word of an integer.
* `Arithmetic.DividesTowardZero`      : quotient and remainder.
* `Arithmetic.shifted`                : shifts.
* `Arithmetic.Computes`               : the integer that each operation stands for.
* `Session.perform_of_computes`       : each operation delivers the word of that integer.
* `Session.arithmetic_exact`          : the instructions.
-/

namespace ZMachine

open ZMachine.Action

/-! ## 1. Words and the integers they stand for -/

namespace Word

/-- The signed reading of a word. -/
def signed (w : Word) : Int :=
  w.toInt16.toInt

theorem toNat_ofInt (x : Int) : ((UInt16.ofInt x).toNat : Int) = x % 0x10000 := by
  have hlt : (x % 0x10000).toNat < 2 ^ 16 := by omega
  have hword : (UInt16.ofInt x).toNat = (x % 0x10000).toNat := UInt16.toNat_ofNat_of_lt' hlt
  rw [hword]
  exact Int.toNat_of_nonneg (Int.emod_nonneg x (by decide))

/-- Integers with the same remainder have the same word. -/
theorem ofInt_congr {x y : Int} (h : x % 0x10000 = y % 0x10000) :
    UInt16.ofInt x = UInt16.ofInt y := by
  show UInt16.ofNat (x % 0x10000).toNat = UInt16.ofNat (y % 0x10000).toNat
  rw [h]

theorem ofInt_toNat (w : Word) : UInt16.ofInt w.toNat = w := by
  apply UInt16.toNat_inj.mp
  have hlt := w.toNat_lt
  have h := toNat_ofInt w.toNat
  omega

theorem ofInt_bmod (x : Int) : UInt16.ofInt (x.bmod (2 ^ 16)) = UInt16.ofInt x :=
  ofInt_congr Int.bmod_emod

/-- **A word is that of its signed reading.** -/
theorem ofInt_signed (w : Word) : UInt16.ofInt w.signed = w := by
  have hread : w.signed = (w.toNat : Int).bmod (2 ^ 16) := w.toBitVec.toInt_eq_toNat_bmod
  rw [hread, ofInt_bmod, ofInt_toNat]

theorem toUInt16_eq_ofInt (x : Int16) : x.toUInt16 = UInt16.ofInt x.toInt := by
  have h := ofInt_signed x.toUInt16
  rw [signed, Int16.toInt16_toUInt16] at h
  exact h.symm

theorem ofInt_sub (x y : Int) : UInt16.ofInt (x - y) = UInt16.ofInt x - UInt16.ofInt y := by
  rw [Int.sub_eq_add_neg, UInt16.ofInt_add, UInt16.ofInt_neg, UInt16.sub_eq_add_neg]

theorem signed_bounds (w : Word) : -0x8000 ≤ w.signed ∧ w.signed < 0x8000 :=
  ⟨Int16.le_toInt w.toInt16, Int16.toInt_lt w.toInt16⟩

theorem signed_eq_zero {w : Word} : w.signed = 0 ↔ w = 0 := by
  constructor
  · intro h
    have hw := ofInt_signed w
    rw [h] at hw
    exact hw.symm
  · rintro rfl
    rfl

end Word

namespace Arithmetic

open Word

variable {a b : Word} {x : Int}

/-! ## 2. Quotient and remainder -/

/-- The integers `q` and `r` are quotient and remainder of `x` by `y`, of which the remainder is
nearer to zero than `y` and has the sign of `x`, so that the quotient is rounded toward zero. -/
structure DividesTowardZero (x y q r : Int) : Prop where
  sum : q * y + r = x
  small : r.natAbs < y.natAbs
  nonneg : 0 ≤ x → 0 ≤ r
  nonpos : x ≤ 0 → r ≤ 0

theorem dividesTowardZero_of_ne {x y : Int} (h : y ≠ 0) :
    DividesTowardZero x y (x.tdiv y) (x.tmod y) where
  sum := Int.tdiv_mul_add_tmod x y
  small := by
    rw [Int.natAbs_tmod]
    exact Nat.mod_lt _ (Int.natAbs_pos.mpr h)
  nonneg hx := Int.tmod_nonneg y hx
  nonpos hx := by
    have hneg := Int.tmod_nonneg y (Int.neg_nonneg_of_nonpos hx)
    rw [Int.neg_tmod] at hneg
    omega

theorem quotient_of_ne (h : b ≠ 0) :
    quotient a b = .ok (UInt16.ofInt (a.signed.tdiv b.signed)) := by
  have hword : (a.toInt16 / b.toInt16).toUInt16 = UInt16.ofInt (a.signed.tdiv b.signed) := by
    rw [toUInt16_eq_ofInt, Int16.toInt_div, ofInt_bmod]
    rfl
  unfold quotient
  rw [if_neg h, hword]

theorem remainder_of_ne (h : b ≠ 0) :
    remainder a b = .ok (UInt16.ofInt (a.signed.tmod b.signed)) := by
  have hword : (a.toInt16 % b.toInt16).toUInt16 = UInt16.ofInt (a.signed.tmod b.signed) := by
    rw [toUInt16_eq_ofInt, Int16.toInt_mod]
    rfl
  unfold remainder
  rw [if_neg h, hword]

/-! ## 3. Shifts -/

/-- The integer times the power of two, which may be a fraction, rounded down. -/
def shifted (x places : Int) : Int :=
  ⌊(x : ℚ) * 2 ^ places⌋

theorem shifted_natCast (x : Int) (k : Nat) : shifted x k = x * 2 ^ k := by
  have hcast : (x : ℚ) * 2 ^ (k : Int) = ((x * 2 ^ k : Int) : ℚ) := by
    rw [zpow_natCast]
    push_cast
    rfl
  unfold shifted
  rw [hcast, Int.floor_intCast]

theorem shifted_neg_natCast (x : Int) (k : Nat) : shifted x (-k) = x / 2 ^ k := by
  have hcast : (x : ℚ) * 2 ^ (-(k : Int)) = (x : ℚ) / ((2 ^ k : Nat) : ℚ) := by
    rw [zpow_neg, zpow_natCast, div_eq_mul_inv]
    push_cast
    rfl
  unfold shifted
  rw [hcast, Rat.floor_intCast_div_natCast]
  push_cast
  rfl

theorem toNat_places {k : Nat} (hk : k ≤ 15) : (UInt16.ofNat k).toNat % 16 = k := by
  rw [UInt16.toNat_ofNat_of_lt' (show k < 2 ^ 16 by omega)]
  omega

/-- Up to 15 places to the left, the bits that leave the word are lost, whichever integer it stands
for. -/
theorem shiftLeft_eq {w : Word} (hw : UInt16.ofInt x = w) {k : Nat} (hk : k ≤ 15) :
    w <<< UInt16.ofNat k = UInt16.ofInt (x * 2 ^ k) := by
  have hword := ofInt_toNat (w <<< UInt16.ofNat k)
  rw [UInt16.toNat_shiftLeft, toNat_places hk, Nat.shiftLeft_eq] at hword
  have hlost : ((w.toNat * 2 ^ k % 2 ^ 16 : Nat) : Int) % 0x10000 = w.toNat * 2 ^ k % 0x10000 := by
    push_cast
    exact Int.emod_emod _ _
  calc w <<< UInt16.ofNat k
      = UInt16.ofInt (w.toNat * 2 ^ k % 2 ^ 16 : Nat) := hword.symm
    _ = UInt16.ofInt (w.toNat * 2 ^ k) := ofInt_congr hlost
    _ = UInt16.ofInt (x * 2 ^ k) := by rw [UInt16.ofInt_mul, UInt16.ofInt_mul, ofInt_toNat, hw]

/-- Further to the left, all bits are lost. -/
theorem ofInt_mul_two_pow (x : Int) {k : Nat} (hk : 15 < k) : UInt16.ofInt (x * 2 ^ k) = 0 := by
  obtain ⟨j, rfl⟩ : ∃ j, k = 16 + j := ⟨k - 16, by omega⟩
  have hzero : x * 2 ^ (16 + j) % 0x10000 = 0 % 0x10000 := by
    rw [pow_add, Int.mul_left_comm]
    exact Int.mul_emod_right _ _
  exact ofInt_congr hzero

theorem ofInt_shifted {w : Word} (hw : UInt16.ofInt x = w) (k : Nat) :
    UInt16.ofInt (shifted x k) = if k ≤ 15 then w <<< UInt16.ofNat k else 0 := by
  rw [shifted_natCast]
  by_cases hk : k ≤ 15
  · rw [if_pos hk, shiftLeft_eq hw hk]
  · rw [if_neg hk, ofInt_mul_two_pow x (by omega)]

theorem shiftRight_eq (w : Word) {k : Nat} (hk : k ≤ 15) :
    w >>> UInt16.ofNat k = UInt16.ofInt (w.toNat / 2 ^ k) := by
  have hword := ofInt_toNat (w >>> UInt16.ofNat k)
  rw [UInt16.toNat_shiftRight, toNat_places hk, Nat.shiftRight_eq_div_pow] at hword
  push_cast at hword
  exact hword.symm

theorem toNat_ediv_two_pow (w : Word) {k : Nat} (hk : 15 < k) : (w.toNat : Int) / 2 ^ k = 0 := by
  have hlt := w.toNat_lt
  have hpow : (2 : Int) ^ 16 ≤ 2 ^ k := pow_le_pow_right₀ (by decide) hk
  exact Int.ediv_eq_zero_of_lt (by omega) (by omega)

theorem signedShiftRight_eq (w : Word) {k : Nat} (hk : k ≤ 15) :
    (w.toInt16 >>> Int16.ofNat k).toUInt16 = UInt16.ofInt (w.signed / 2 ^ k) := by
  have hplaces : ∀ j ≤ 15, ((Int16.ofNat j).toBitVec.smod 16).toNat = j := by decide
  have hshift : (w.toInt16 >>> Int16.ofNat k).toInt = w.signed / 2 ^ k := by
    show (w.toInt16 >>> Int16.ofNat k).toBitVec.toInt = _
    rw [Int16.toBitVec_shiftRight, BitVec.sshiftRight', hplaces k hk, BitVec.toInt_sshiftRight,
      Int.shiftRight_eq_div_pow]
    push_cast
    rfl
  rw [toUInt16_eq_ofInt, hshift]

/-- Beyond 15 places to the right only the sign is left of a signed word. -/
theorem signed_ediv_two_pow (w : Word) (k : Nat) : w.signed / 2 ^ min 15 k = w.signed / 2 ^ k := by
  obtain ⟨hge, hlt⟩ := signed_bounds w
  by_cases hk : k ≤ 15
  · rw [Nat.min_eq_right hk]
  · -- Both divisors are beyond the word, so that only its sign decides.
    have hpow : (2 : Int) ^ 15 ≤ 2 ^ k := pow_le_pow_right₀ (by decide) (by omega)
    rw [Nat.min_eq_left (by omega)]
    by_cases hneg : w.signed < 0
    · rw [Int.ediv_eq_neg_one_of_neg_of_le hneg (by omega),
        Int.ediv_eq_neg_one_of_neg_of_le hneg (by omega)]
    · rw [Int.ediv_eq_zero_of_lt (by omega) (by omega),
        Int.ediv_eq_zero_of_lt (by omega) (by omega)]

/-- **Without its sign, a word is shifted as the integer is.** -/
theorem logicalShift_eq (a b : Word) :
    logicalShift a b = UInt16.ofInt (shifted a.toNat b.signed) := by
  have hdef : logicalShift a b =
      if 0 ≤ b.signed ∧ b.signed ≤ 15 then a <<< UInt16.ofNat b.signed.toNat
      else if -15 ≤ b.signed ∧ b.signed < 0 then a >>> UInt16.ofNat (-b.signed).toNat
      else 0 := rfl
  rw [hdef]
  by_cases hneg : b.signed < 0
  · obtain ⟨k, hk⟩ : ∃ k : Nat, b.signed = -k := ⟨(-b.signed).toNat, by omega⟩
    rw [hk, if_neg (by omega), shifted_neg_natCast, Int.neg_neg, Int.toNat_natCast]
    by_cases hle : k ≤ 15
    · rw [if_pos (by omega), shiftRight_eq a hle]
    · rw [if_neg (by omega), toNat_ediv_two_pow a (by omega)]
      rfl
  · obtain ⟨k, hk⟩ : ∃ k : Nat, b.signed = k := ⟨b.signed.toNat, by omega⟩
    rw [hk, ofInt_shifted (ofInt_toNat a), Int.toNat_natCast]
    by_cases hle : k ≤ 15
    · rw [if_pos (by omega), if_pos hle]
    · rw [if_neg (by omega), if_neg (by omega), if_neg hle]

/-- **With its sign, a word is shifted as the integer is.** -/
theorem arithmeticShift_eq (a b : Word) :
    arithmeticShift a b = UInt16.ofInt (shifted a.signed b.signed) := by
  have hdef : arithmeticShift a b =
      if 0 ≤ b.signed ∧ b.signed ≤ 15 then a <<< UInt16.ofNat b.signed.toNat
      else if 15 < b.signed then 0
      else (a.toInt16 >>> Int16.ofNat (min 15 (-b.signed).toNat)).toUInt16 := rfl
  rw [hdef]
  by_cases hneg : b.signed < 0
  · obtain ⟨k, hk⟩ : ∃ k : Nat, b.signed = -k := ⟨(-b.signed).toNat, by omega⟩
    rw [hk, if_neg (by omega), if_neg (by omega), shifted_neg_natCast, Int.neg_neg,
      Int.toNat_natCast, signedShiftRight_eq a (Nat.min_le_left 15 k), signed_ediv_two_pow]
  · obtain ⟨k, hk⟩ : ∃ k : Nat, b.signed = k := ⟨b.signed.toNat, by omega⟩
    rw [hk, ofInt_shifted (ofInt_signed a), Int.toNat_natCast]
    by_cases hle : k ≤ 15
    · rw [if_pos (by omega), if_pos hle]
    · rw [if_neg (by omega), if_pos (by omega), if_neg hle]

/-! ## 4. The integer of each operation -/

/-- The integer that an operation on two words stands for. Division by zero has none. -/
inductive Computes (a b : Word) : Operation → Int → Prop where
  | add : Computes a b .add (a.signed + b.signed)
  | sub : Computes a b .sub (a.signed - b.signed)
  | mul : Computes a b .mul (a.signed * b.signed)
  | div (h : b ≠ 0) : Computes a b .div (a.signed.tdiv b.signed)
  | mod (h : b ≠ 0) : Computes a b .mod (a.signed.tmod b.signed)
  | logShift : Computes a b .logShift (shifted a.toNat b.signed)
  | artShift : Computes a b .artShift (shifted a.signed b.signed)

/-- The quotient and the remainder belong together, as integers and as words. -/
theorem divides_of_computes {q r : Int} (hq : Computes a b .div q) (hr : Computes a b .mod r) :
    DividesTowardZero a.signed b.signed q r ∧ UInt16.ofInt q * b + UInt16.ofInt r = a := by
  cases hq with
  | div h =>
      cases hr with
      | mod _ =>
          have hdivides := dividesTowardZero_of_ne (x := a.signed) (mt signed_eq_zero.mp h)
          refine ⟨hdivides, ?_⟩
          calc UInt16.ofInt (a.signed.tdiv b.signed) * b + UInt16.ofInt (a.signed.tmod b.signed)
              = UInt16.ofInt (a.signed.tdiv b.signed * b.signed + a.signed.tmod b.signed) := by
                rw [UInt16.ofInt_add, UInt16.ofInt_mul, ofInt_signed]
            _ = a := by rw [hdivides.sum, ofInt_signed]

end Arithmetic

/-! ## 5. The instructions -/

namespace Handler

open Machine

variable {f : Word → Word → Except Fault Word} {a b w : Word} {e : Fault}

theorem binary_of_ok (i : Instruction) (rest : List Word) (h : f a b = .ok w) :
    binary f i (a :: b :: rest) = deliver i w := by
  funext m
  show (liftM (f a b) >>= deliver i : Action Machine Flow) m = _
  rw [h]
  rfl

theorem binary_of_error (i : Instruction) (rest : List Word) (m : Machine) (h : f a b = .error e) :
    binary f i (a :: b :: rest) m = .error e m := by
  show (liftM (f a b) >>= deliver i : Action Machine Flow) m = _
  rw [h]
  rfl

end Handler

namespace Session

open Machine Arithmetic

variable {H : Host} {s : Session H} {i : Instruction} {op : Operation} {a b : Word}
  {rest : List Word} {m : Machine}

/-- **An operation delivers the word of the integer that it stands for.** -/
theorem perform_of_computes {x : Int} (h : Computes a b op x) (i : Instruction) (rest : List Word) :
    (op.perform i (a :: b :: rest) : Exec H Flow) = onMachine (deliver i (UInt16.ofInt x)) := by
  have hbinary : ∀ {f}, f a b = .ok (UInt16.ofInt x) →
      (onMachine (Handler.binary f i (a :: b :: rest)) : Exec H Flow) =
        onMachine (deliver i (UInt16.ofInt x)) :=
    fun hf => congrArg onMachine (Handler.binary_of_ok i rest hf)
  cases h with
  | add => exact hbinary (by rw [UInt16.ofInt_add, Word.ofInt_signed, Word.ofInt_signed])
  | sub => exact hbinary (by rw [Word.ofInt_sub, Word.ofInt_signed, Word.ofInt_signed])
  | mul => exact hbinary (by rw [UInt16.ofInt_mul, Word.ofInt_signed, Word.ofInt_signed])
  | div h => exact hbinary (quotient_of_ne h)
  | mod h => exact hbinary (remainder_of_ne h)
  | logShift => exact hbinary (congrArg Except.ok (logicalShift_eq a b))
  | artShift => exact hbinary (congrArg Except.ok (arithmeticShift_eq a b))

/-- A division by zero fails before it writes anything. -/
theorem perform_of_zero (h : op = .div ∨ op = .mod) (i : Instruction) (a : Word) (rest : List Word)
    (s : Session H) : op.perform i (a :: 0 :: rest) s = .error .divisionByZero s := by
  rcases h with rfl | rfl
  · have hdiv : quotient a 0 = .error .divisionByZero := if_pos rfl
    exact onMachine_eq_error.mpr ⟨s.machine, Handler.binary_of_error i rest _ hdiv, rfl⟩
  · have hmod : remainder a 0 = .error .divisionByZero := if_pos rfl
    exact onMachine_eq_error.mpr ⟨s.machine, Handler.binary_of_error i rest _ hmod, rfl⟩

/-- The instruction writes the value to its variable, on the machine with its operands read, and the
next one follows. -/
def Delivers (s : Session H) (i : Instruction) (m : Machine) (var : UInt8) (value : Word) : Prop :=
  ∃ m', Stored var.toUInt16 value m m' ∧ execute i s = .ok .next { s with machine := m' }

/-- **Arithmetic is exact up to its last 16 bits.** Whatever words the operands are, the instruction
delivers the integer that it stands for, modulo `2 ^ 16`, to every variable that can be written. A
division by zero fails, and apart from the operands that were on the stack nothing has changed. And
the quotient times the divisor together with the remainder is the dividend, also where the quotient
does not fit into a word. -/
theorem arithmetic_exact (s : Session H) (i : Instruction) (op : Operation) (a b : Word)
    (rest : List Word) (m : Machine)
    (hfound : Operation.standard.lookup i.opcode s.machine.version = some op)
    (hread : resolve i.operands s.machine = .ok (a :: b :: rest) m) :
    (∀ x var, Computes a b op x → i.store = some var →
      HasCell (m.stack.length < m.stackLimit) m var.toUInt16 →
      s.Delivers i m var (UInt16.ofInt x)) ∧
    (op = .div ∨ op = .mod → b = 0 →
      execute i s =
        .error .divisionByZero { s with machine := s.machine.afterReading i.operands }) ∧
    ∀ q r, Computes a b .div q → Computes a b .mod r →
      DividesTowardZero a.signed b.signed q r ∧ UInt16.ofInt q * b + UInt16.ofInt r = a := by
  have hexecute := execute_of_resolve hfound hread
  refine ⟨fun x var hx hstore hcell => ?_, fun hop hb => ?_, fun q r => divides_of_computes⟩
  · obtain ⟨m', hstored, hwrite⟩ := storeResult_of_hasCell (UInt16.ofInt x) hstore hcell
    have hdeliver : deliver i (UInt16.ofInt x) m = .ok .next m' := bind_of_ok hwrite
    refine ⟨m', hstored, ?_⟩
    rw [hexecute, perform_of_computes hx]
    exact onMachine_eq_ok.mpr ⟨m', hdeliver, rfl⟩
  · obtain ⟨-, rfl⟩ := resolve_eq_ok.mp hread
    rw [hexecute, hb, perform_of_zero hop]

/-- A session with the given values on its stack. -/
def calculating (stack : List Word) : Session Host.standard :=
  bare
    { memory := ⟨#[5]⟩
      version := 5
      pc := 0
      stack
      frames := [Frame.main []]
      stackLimit := 3 }

/-- An instruction that takes two operands from the stack and puts its result there. -/
def onTopTwo (opcode : Opcode) : Instruction where
  opcode
  form := .variable
  operands := [⟨.variable, 0⟩, ⟨.variable, 0⟩]
  store := some 0
  branch := none
  textAddr := none
  size := 5

/-- The lowest signed word divided by -1 is itself, 16 places to the right only its sign is left,
and divided by zero it is gone with the divisor. -/
theorem calculating_exact :
    (calculating [0x8000, -1, 7]).Delivers (onTopTwo ⟨.op2, 0x17⟩) (calculating [7]).machine 0
        0x8000 ∧
      (calculating [0x8000, -16, 7]).Delivers (onTopTwo ⟨.ext, 0x03⟩) (calculating [7]).machine 0
        0xffff ∧
      execute (onTopTwo ⟨.op2, 0x17⟩) (calculating [0x8000, 0, 7]) =
        .error .divisionByZero (calculating [7]) := by
  have hcell :
      HasCell ((calculating [7]).machine.stack.length < (calculating [7]).machine.stackLimit)
        (calculating [7]).machine (0 : UInt8).toUInt16 := .inl ⟨rfl, by decide⟩
  have hsign : UInt16.ofInt (shifted (Word.signed 0x8000) (Word.signed (-16))) = 0xffff := by
    show UInt16.ofInt (shifted (-0x8000) (-(16 : Nat))) = _
    rw [shifted_neg_natCast]
    decide
  refine ⟨?_, ?_, ?_⟩
  · exact (arithmetic_exact (calculating [0x8000, -1, 7]) (onTopTwo ⟨.op2, 0x17⟩) .div 0x8000
      (-1) [] _ rfl rfl).1 _ 0 (.div (by decide)) rfl hcell
  · rw [← hsign]
    exact (arithmetic_exact (calculating [0x8000, -16, 7]) (onTopTwo ⟨.ext, 0x03⟩) .artShift 0x8000
      (-16) [] _ rfl rfl).1 _ 0 .artShift rfl hcell
  · exact (arithmetic_exact (calculating [0x8000, 0, 7]) (onTopTwo ⟨.op2, 0x17⟩) .div 0x8000 0 [] _
      rfl rfl).2.1 (.inl rfl) rfl

end Session

end ZMachine
