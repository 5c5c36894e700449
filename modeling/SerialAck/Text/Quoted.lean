/-
Texts in double quotes, as messages show them: a backslash before quotes and backslashes, short
escapes for the common controls, and the code point in braces for whatever would not be seen.
-/
import SerialAck.Number.Hex
import SerialAck.Text.Unshown

namespace SerialAck.Quoted

def char (c : Char) : List Char :=
  if c = '\x00' then ['\\', '0']
  else if c = '\t' then ['\\', 't']
  else if c = '\r' then ['\\', 'r']
  else if c = '\n' then ['\\', 'n']
  else if c = '\\' ∨ c = '"' then ['\\', c]
  else if Unshown.mem c then ['\\', 'u', '\x7b'] ++ Hex.digits c.toNat ++ ['\x7d']
  else [c]

def text (s : String) : String :=
  "\"" ++ .ofList (s.toList.flatMap char) ++ "\""

end SerialAck.Quoted
