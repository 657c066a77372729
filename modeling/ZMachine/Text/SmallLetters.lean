/-!
# Small letters

Input lines are read in small letters. The letters turned are those whose small form a story can
receive: all other characters reach no story, before the change or after it.
-/

namespace ZMachine.Text

/-- The small form of a character. Beside the letters with a capital at a fixed distance there are
the capital ligature, the capital y with diaeresis, the capital sharp s, the dotted capital i and
the signs for kelvin and for the unit of length. -/
def smallLetter (c : Char) : Char :=
  let n := c.toNat
  if 'A' ≤ c ∧ c ≤ 'Z' then Char.ofNat (n + 32)
  else if 0xc0 ≤ n ∧ n ≤ 0xde ∧ n ≠ 0xd7 then Char.ofNat (n + 32)
  else if c = 'Œ' then 'œ'
  else if c = 'Ÿ' then 'ÿ'
  else if c = 'ẞ' then 'ß'
  else if n = 0x130 then 'i'
  else if n = 0x212a then 'k'
  else if n = 0x212b then 'å'
  else c

/-- A line in small letters. -/
def smallLetters (line : List Char) : List Char :=
  line.map smallLetter

end ZMachine.Text
