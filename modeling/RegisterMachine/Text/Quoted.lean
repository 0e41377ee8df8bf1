import RegisterMachine.Text.Digits
import RegisterMachine.Text.Hidden

/-!
# Quoted text

Messages and listings show a text between double quotes so that every character can be told apart.
Common controls, the quote and the backslash have short escapes, characters without a glyph of
their own are shown by number, and everything else stands for itself.
-/

namespace RegisterMachine.Text

def quoteChar (c : Char) : String :=
  if c = '\x00' then "\\0"
  else if c = '\t' then "\\t"
  else if c = '\r' then "\\r"
  else if c = '\n' then "\\n"
  else if c = '\\' then "\\\\"
  else if c = '"' then "\\\""
  else if isHidden c then "\\u\x7b" ++ hex c.toNat ++ "\x7d"
  else c.toString

/-- A text between double quotes, with escapes. -/
def quote (text : String) : String :=
  "\"" ++ String.join (text.toList.map quoteChar) ++ "\""

end RegisterMachine.Text
