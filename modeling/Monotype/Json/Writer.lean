import Monotype.Json
import Monotype.Text.Hex

/-!
JSON texts in ASCII: a blank after each comma and colon, and an escape for every other character
than the visible ASCII ones.
-/

namespace Monotype.Json

/-- A character inside a string. Characters beyond the first plane take two code units. -/
def escapeChar (c : Char) : String :=
  if c = '"' then "\\\""
  else if c = '\\' then "\\\\"
  else if c = '\n' then "\\n"
  else if c = '\r' then "\\r"
  else if c = '\t' then "\\t"
  else if c = '\x0c' then "\\f"
  else if c = '\x08' then "\\b"
  else if ' ' ≤ c ∧ c ≤ '~' then c.toString
  else
    let n := c.toNat
    if n < 0x10000 then "\\u" ++ Text.hex 4 n
    else
      let offset := n - 0x10000
      "\\u" ++ Text.hex 4 (0xD800 + offset / 0x400) ++ "\\u" ++ Text.hex 4 (0xDC00 + offset % 0x400)

def quote (s : String) : String := "\"" ++ String.join (s.toList.map escapeChar) ++ "\""

mutual

def text : Json → String
  | .null => "null"
  | .bool true => "true"
  | .bool false => "false"
  | .int n => toString n
  | .real literal => literal
  | .string s => quote s
  | .array es => "[" ++ ", ".intercalate (textAll es) ++ "]"
  | .object fs => "\x7b" ++ ", ".intercalate (textFields fs) ++ "\x7d"

def textAll : List Json → List String
  | [] => []
  | v :: vs => v.text :: textAll vs

def textFields : List (String × Json) → List String
  | [] => []
  | (k, v) :: fs => (quote k ++ ": " ++ v.text) :: textFields fs

end

end Monotype.Json
