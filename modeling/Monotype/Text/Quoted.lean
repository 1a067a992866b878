import Monotype.Text.Hex
import Monotype.Text.Printable

/-!
Texts between quotes, for messages: what cannot be seen is escaped, all else stands as it is.
-/

namespace Monotype.Text

def quoteChar (mark c : Char) : String :=
  if c = mark ∨ c = '\\' then "\\".push c
  else if c = '\n' then "\\n"
  else if c = '\r' then "\\r"
  else if c = '\t' then "\\t"
  else if isPrintable c then c.toString
  else if c.toNat < 0x100 then "\\x" ++ hex 2 c.toNat
  else if c.toNat < 0x10000 then "\\u" ++ hex 4 c.toNat
  else "\\U" ++ hex 8 c.toNat

/-- The quotation mark for a text: the double one only if the text holds single ones alone. -/
def quoteMark (s : String) : Char :=
  if s.toList.contains '\'' && !s.toList.contains '"' then '"' else '\''

def quoted (s : String) : String :=
  let mark := quoteMark s
  mark.toString ++ String.join (s.toList.map (quoteChar mark)) ++ mark.toString

end Monotype.Text
