/-!
# Numerals

The written forms of natural numbers in messages and listings: lower-case hexadecimal and decimal,
filled with zeros on the left up to a least width and never cut.

* `hex`      : at least so many hexadecimal digits, without a mark.
* `hexMark`  : marked with `0x`, the mark counted in the width.
* `decimal`  : at least so many decimal digits.
* `natural?` : reads a run of decimal digits, with one plus sign allowed before it.
-/

namespace ZMachine.Numeral

/-- Fills a digit string with zeros on the left up to `width` characters. -/
def fill (width : Nat) (digits : List Char) : List Char :=
  List.replicate (width - digits.length) '0' ++ digits

/-- The number in hexadecimal, in at least `width` digits. -/
def hex (width n : Nat) : String :=
  String.ofList (fill width (Nat.toDigits 16 n))

/-- The number in hexadecimal behind the mark `0x`, in at least `width` characters with the mark. -/
def hexMark (width n : Nat) : String :=
  "0x" ++ hex (width - 2) n

/-- The number in decimal, in at least `width` digits. -/
def decimal (width n : Nat) : String :=
  String.ofList (fill width (Nat.toDigits 10 n))

/-- A decimal number with its sign always written. -/
def signed (i : Int) : String :=
  if i < 0 then "-" ++ decimal 0 i.natAbs else "+" ++ decimal 0 i.natAbs

/-- A decimal number with a sign only when it is negative. -/
def integer (i : Int) : String :=
  if i < 0 then "-" ++ decimal 0 i.natAbs else decimal 0 i.natAbs

/-- The value of a digit character in the given base, if it is one. -/
def digit? (base : Nat) (c : Char) : Option Nat :=
  let value :=
    if '0' ≤ c ∧ c ≤ '9' then some (c.toNat - '0'.toNat)
    else if 'a' ≤ c ∧ c ≤ 'z' then some (c.toNat - 'a'.toNat + 10)
    else if 'A' ≤ c ∧ c ≤ 'Z' then some (c.toNat - 'A'.toNat + 10)
    else none
  value.filter (· < base)

/-- The value of a run of digits in the given base, most significant first, on top of `start`. -/
def valueFrom? (base : Nat) : Nat → List Char → Option Nat
  | start, [] => some start
  | start, c :: cs => do valueFrom? base (start * base + (← digit? base c)) cs

/-- The value of a non-empty run of digits in the given base. -/
def value? (base : Nat) (digits : List Char) : Option Nat :=
  if digits.isEmpty then none else valueFrom? base 0 digits

/-- Reads decimal digits, after at most one plus sign. -/
def natural? (text : List Char) : Option Nat :=
  match text with
  | '+' :: digits => value? 10 digits
  | digits => value? 10 digits

end ZMachine.Numeral
