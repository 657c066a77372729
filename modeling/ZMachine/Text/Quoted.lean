import ZMachine.Text.Numeral
import ZMachine.Text.Unprintable

/-!
# Quoted text

A text between double quotes, as it stands in error reports: the quote and the backslash behind a
backslash, the usual control characters by letter, everything else without a visible form by its
code point in braces.
-/

namespace ZMachine.Text

/-- One character inside a quoted text. -/
def quotedChar (c : Char) : String :=
  if c = '"' then "\\\""
  else if c = '\\' then "\\\\"
  else if c = '\t' then "\\t"
  else if c = '\n' then "\\n"
  else if c = '\r' then "\\r"
  else if c = '\x00' then "\\0"
  else if isUnprintable c then "\\u\x7b" ++ Numeral.hex 0 c.toNat ++ "\x7d"
  else c.toString

/-- The text between double quotes. -/
def quoted (text : String) : String :=
  "\"" ++ String.join (text.toList.map quotedChar) ++ "\""

end ZMachine.Text
