/-
Single bytes as printable text: printable characters stand for themselves, and every other byte
has an escape that begins with a backslash.
-/
import SerialAck.Number.Hex

namespace SerialAck.Escape

def byte (b : UInt8) : List Char :=
  let n := b.toNat
  if n = 9 then ['\\', 't']
  else if n = 10 then ['\\', 'n']
  else if n = 13 then ['\\', 'r']
  else if n = 34 ∨ n = 39 ∨ n = 92 then ['\\', .ofNat n]
  else if 32 ≤ n ∧ n < 127 then [.ofNat n]
  else ['\\', 'x', Hex.digit (n / 16), Hex.digit (n % 16)]

end SerialAck.Escape
