import ZMachine.Machine.Control
import ZMachine.Session.Basic

/-!
# Arithmetic

Sums, products, quotients, bit patterns and shifts on 16-bit words. What goes beyond 16 bits is
lost; a division by zero is fatal and stores nothing.
-/

namespace ZMachine

/-! ## 1. The functions -/

namespace Arithmetic

/-- The signed quotient, rounded toward zero. -/
def quotient (a b : Word) : Except Fault Word :=
  if b = 0 then .error .divisionByZero else .ok (a.toInt16 / b.toInt16).toUInt16

/-- The signed remainder, with the sign of the dividend. -/
def remainder (a b : Word) : Except Fault Word :=
  if b = 0 then .error .divisionByZero else .ok (a.toInt16 % b.toInt16).toUInt16

/-- The word shifted left, or right for a negative number of places; zeros come in. -/
def logicalShift (number places : Word) : Word :=
  let n := places.toInt16.toInt
  if 0 ≤ n ∧ n ≤ 15 then number <<< UInt16.ofNat n.toNat
  else if -15 ≤ n ∧ n < 0 then number >>> UInt16.ofNat (-n).toNat
  else 0

/-- The word shifted left, or right for a negative number of places; on the right its sign stays. -/
def arithmeticShift (number places : Word) : Word :=
  let n := places.toInt16.toInt
  if 0 ≤ n ∧ n ≤ 15 then number <<< UInt16.ofNat n.toNat
  else if 15 < n then 0
  else (number.toInt16 >>> Int16.ofNat (min 15 (-n).toNat)).toUInt16

end Arithmetic

/-! ## 2. The instructions -/

namespace Handler

open Machine

/-- Delivers a function of two operands. -/
def binary (f : Word → Word → Except Fault Word) (i : Instruction) (args : List Word) :
    Action Machine Flow := do
  let a ← operand i args 0
  let b ← operand i args 1
  let result ← f a b
  deliver i result

/-- Bitwise or. -/
def bitOr := binary fun a b => .ok (a ||| b)

/-- Bitwise and. -/
def bitAnd := binary fun a b => .ok (a &&& b)

/-- Sum. -/
def add := binary fun a b => .ok (a + b)

/-- Difference. -/
def sub := binary fun a b => .ok (a - b)

/-- Product. -/
def mul := binary fun a b => .ok (a * b)

/-- Quotient. -/
def div := binary Arithmetic.quotient

/-- Remainder. -/
def mod := binary Arithmetic.remainder

/-- Logical shift. -/
def logShift := binary fun a b => .ok (Arithmetic.logicalShift a b)

/-- Arithmetic shift. -/
def artShift := binary fun a b => .ok (Arithmetic.arithmeticShift a b)

/-- Bitwise complement. -/
def bitNot (i : Instruction) (args : List Word) : Action Machine Flow := do
  let a ← operand i args 0
  deliver i (~~~a)

/-- A random number up to a positive bound. A negative number seeds a predictable row and 0 a
uniform one; both give 0. -/
def random {H : Host} (i : Instruction) (args : List Word) : Exec H Flow := do
  let bound ← Session.onMachine (operand i args 0)
  let s ← get
  let (result, random) :=
    if bound.toInt16 > 0 then s.random.draw bound
    else (0, s.random.reseed (UInt64.ofNat bound.toInt16.toInt.natAbs))
  set { s with random }
  Session.onMachine (deliver i result)

end Handler

end ZMachine
