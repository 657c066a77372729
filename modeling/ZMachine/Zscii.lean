import ZMachine.Memory

/-!
# The character code of stories

Output and input characters are numbered: 13 is the end of a line, 32 to 126 are the printable
characters of the basic set, 155 to 223 a fixed row of accented letters and signs.

* `Zscii.toChar?` : the character of a code.
* `Zscii.ofChar?` : the code of a character.
-/

namespace ZMachine.Zscii

/-- The characters of the codes from 155 on. -/
def extras : List Char :=
  "äöüÄÖÜß»«ëïÿËÏáéíóúýÁÉÍÓÚÝàèìòùÀÈÌÒÙâêîôûÂÊÎÔÛåÅøØãñõÃÑÕæÆçÇþðÞÐ£œŒ¡¿".toList

/-- The first code of the extra characters. -/
def firstExtra : Nat := 155

/-- The code of the end of a line. -/
def newline : Word := 13

/-- The code of the question mark, which stands for characters without a code. -/
def questionMark : Word := 63

/-- The character of a code, if it has a printed form. -/
def toChar? (code : Word) : Option Char :=
  if code = newline then some '\n'
  else if 32 ≤ code ∧ code ≤ 126 then some (Char.ofNat code.toNat)
  else if firstExtra ≤ code.toNat then extras[code.toNat - firstExtra]?
  else none

/-- The code of a character, if it has one. A carriage return counts as the end of a line. -/
def ofChar? (c : Char) : Option Word :=
  if c = '\n' ∨ c = '\r' then some newline
  else if ' ' ≤ c ∧ c ≤ '~' then some (UInt16.ofNat c.toNat)
  else (extras.idxOf? c).map fun i => UInt16.ofNat (firstExtra + i)

/-- The code of a character, or that of the question mark. -/
def ofChar (c : Char) : Word :=
  (ofChar? c).getD questionMark

end ZMachine.Zscii
