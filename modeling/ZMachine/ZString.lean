import ZMachine.Header
import ZMachine.Zscii

/-!
# Encoded strings

A string is a row of words, each holding three 5-bit z-characters; the word with bit 15 set is the
last. The z-characters shift between three alphabets, spell out codes and refer to abbreviations.

* `ZString.encodedLength` : how many bytes an encoded string takes up.
* `ZString.collect`       : its z-characters, as long as there are at most `3 * maxWords`.
* `ZString.scan`          : the text of a row of z-characters, given the abbreviations' texts.
* `ZString.decode`        : the text at an address and the bytes it takes up.
-/

namespace ZMachine.ZString

/-! ## 1. Words and their z-characters -/

/-- Whether the word is the last of its string. -/
def isLast (w : Word) : Bool :=
  w &&& 0x8000 ≠ 0

/-- The three z-characters of a word. -/
def zcharsOf (w : Word) : List UInt8 :=
  [((w >>> 10) &&& 0x1f).toUInt8, ((w >>> 5) &&& 0x1f).toUInt8, (w &&& 0x1f).toUInt8]

/-- The address behind the string at an address: behind the first word from there that is a last
one. -/
def stringEnd (m : Memory) (addr : Nat) : Except Fault Nat :=
  match h : m.readWord addr with
  | .error e => .error e
  | .ok w => if isLast w then .ok (addr + 2) else stringEnd m (addr + 2)
termination_by m.size - addr
decreasing_by
  have := Memory.lt_size_of_readWord h
  omega

/-- The number of bytes of the string at an address. -/
def encodedLength (m : Memory) (addr : Nat) : Except Fault Nat := do
  return (← stringEnd m addr) - addr

/-- A longer string is taken for runaway data. -/
def maxWords : Nat := 1000

/-- The z-characters of the string from `addr` on and its length in bytes, reading at most the given
number of words; `start` is where the whole string begins. -/
def collectWords (m : Memory) (start : Nat) : Nat → Nat → Except Fault (List UInt8 × Nat)
  | 0, _ => .error (.refused (.unterminatedString start))
  | words + 1, addr => do
      let w ← m.readWord addr
      if isLast w then
        return (zcharsOf w, 2)
      else
        let (zchars, length) ← collectWords m start words (addr + 2)
        return (zcharsOf w ++ zchars, length + 2)

/-- The z-characters of the string at an address and its length in bytes. -/
def collect (m : Memory) (addr : Nat) : Except Fault (List UInt8 × Nat) :=
  collectWords m addr maxWords addr

/-! ## 2. Alphabets -/

/-- The three alphabets: small letters, capitals, and digits with punctuation. -/
inductive Alphabet where
  | small
  | capital
  | symbol
  deriving DecidableEq, Repr

namespace Alphabet

/-- The next alphabet in turn. -/
def next : Alphabet → Alphabet
  | small => capital
  | capital => symbol
  | symbol => small

/-- The characters of an alphabet, those of z-character 6 first. Version 1 has symbols of its
own. -/
def chars (version : UInt8) : Alphabet → List Char
  | small => "abcdefghijklmnopqrstuvwxyz".toList
  | capital => "ABCDEFGHIJKLMNOPQRSTUVWXYZ".toList
  | symbol =>
      if version = 1 then " 0123456789.,!?_#'\"/\\<-:()".toList
      else " \n0123456789.,!?_#'\"/\\-:()".toList

/-- The character of a z-character from 6 on. -/
def char? (version : UInt8) (alphabet : Alphabet) (z : UInt8) : Option Char :=
  if z < 6 then none else (alphabet.chars version)[z.toNat - 6]?

end Alphabet

/-! ## 3. The text of a row of z-characters -/

/-- The bank of abbreviations a z-character refers to, if it does. -/
def abbreviationBank? (version z : UInt8) : Option Nat :=
  if version = 2 then (if z = 1 then some 0 else none)
  else if 3 ≤ version ∧ version ≤ 8 ∧ 1 ≤ z ∧ z ≤ 3 then some (z.toNat - 1)
  else none

/-- The text of a row of z-characters. `abbreviation` gives the text of an abbreviation by its
number, `locked` is the alphabet in force, `current` the one for the next character only.

A reference or a spelled-out code that the row cuts short stands for nothing. -/
def scan (version : UInt8) (abbreviation : Nat → Except Fault (List Char)) :
    Alphabet → Alphabet → List UInt8 → Except Fault (List Char)
  | _, _, [] => .ok []
  | locked, current, z :: rest =>
      match abbreviationBank? version z with
      | some bank =>
          match rest with
          | [] => .ok []
          | index :: rest => do
              let text ← abbreviation (bank * 32 + index.toNat)
              return text ++ (← scan version abbreviation locked locked rest)
      | none =>
          if z = 0 then do
            return ' ' :: (← scan version abbreviation locked locked rest)
          else if z = 1 then do
            return '\n' :: (← scan version abbreviation locked locked rest)
          else if z ≤ 5 ∧ version ≤ 2 then
            let shifted := if z % 2 = 0 then locked.next else locked.next.next
            scan version abbreviation (if 4 ≤ z then shifted else locked) shifted rest
          else if z = 4 then
            scan version abbreviation locked .capital rest
          else if z = 5 then
            scan version abbreviation locked .symbol rest
          else if z = 6 ∧ current = .symbol then
            match rest with
            | high :: low :: rest => do
                let code := (high.toUInt16 <<< 5) ||| low.toUInt16
                let c := (Zscii.toChar? code).getD '?'
                return c :: (← scan version abbreviation locked locked rest)
            | _ => .ok []
          else
            match current.char? version z with
            | some c => do
                return c :: (← scan version abbreviation locked locked rest)
            | none => .error (.defect .alphabet)

/-! ## 4. Strings in memory -/

/-- How deeply strings may stand inside each other: a string and three levels of abbreviations. -/
def maxDepth : Nat := 4

/-- The text and length of the string at an address, with abbreviations expanded to the given
number of levels. -/
def decodeAt (m : Memory) (version : UInt8) (table : Nat) :
    Nat → Nat → Except Fault (List Char × Nat)
  | 0, addr => .error (.refused (.abbreviationTooDeep addr))
  | depth + 1, addr => do
      let (zchars, length) ← collect m addr
      let abbreviation := fun number => do
        let target ← m.readWord (table + number * 2)
        let (text, _) ← decodeAt m version table depth (target.toNat * 2)
        return text
      let text ← scan version abbreviation .small .small zchars
      return (text, length)

/-- The text of the string at an address and the bytes it takes up. Version and abbreviations are
those the header names. -/
def decode (m : Memory) (addr : Nat) : Except Fault (String × Nat) := do
  let version ← Header.version m
  let table ← Header.abbreviations m
  let (text, length) ← decodeAt m version table.toNat maxDepth addr
  return (String.ofList text, length)

end ZMachine.ZString

namespace ZMachine

/-- What turns the encoded string at an address into its text and length. -/
abbrev TextDecoder := Memory → Nat → Except Fault (String × Nat)

/-- A decoder that names the address instead of reading it. -/
def TextDecoder.placeholder : TextDecoder := fun _ addr =>
  .ok ("<" ++ Numeral.decimal 0 addr ++ ">", 0)

end ZMachine
