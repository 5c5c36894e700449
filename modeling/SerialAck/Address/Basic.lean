/-
Socket addresses and how they are written. Of the groups of a long address the first of the
longest runs of zeros is left out, and an address that stands for a short one ends like it.
-/
import SerialAck.Number.Hex
import SerialAck.Number.Numeral

namespace SerialAck

structure Octets where
  a : UInt8
  b : UInt8
  c : UInt8
  d : UInt8
  deriving Repr, DecidableEq

/-- The eight groups of a long address. -/
abbrev Groups := { gs : List UInt16 // gs.length = 8 }

/-- A short address, or a long one with the number of the interface it is to be reached by. -/
inductive Address where
  | short (octets : Octets) (port : UInt16)
  | long (groups : Groups) (scope : UInt32) (port : UInt16)
  deriving Repr, DecidableEq

namespace Octets

def toList (o : Octets) : List UInt8 :=
  [o.a, o.b, o.c, o.d]

def text (o : Octets) : List Char :=
  List.intercalate ['.'] (o.toList.map fun n => Numeral.digits n.toNat)

/-- The octets of two groups. -/
def ofGroups (g h : UInt16) : Octets :=
  ⟨.ofNat (g.toNat / 256), .ofNat (g.toNat % 256), .ofNat (h.toNat / 256), .ofNat (h.toNat % 256)⟩

/-- The octets of a number below 2^32. -/
def ofNat (n : Nat) : Octets :=
  ofGroups (.ofNat (n / 65536)) (.ofNat (n % 65536))

def pair (a b : UInt8) : UInt16 :=
  .ofNat (a.toNat * 256 + b.toNat)

/-- The two groups that octets make. -/
def groups (o : Octets) : List UInt16 :=
  [pair o.a o.b, pair o.c o.d]

end Octets

namespace Groups

def colons (gs : List UInt16) : List Char :=
  List.intercalate [':'] (gs.map fun g => Hex.digits g.toNat)

/-- How many zeros the list begins with. -/
def zeros (gs : List UInt16) : Nat :=
  (gs.takeWhile (· = 0)).length

/-- Where the first of the longest runs of zeros begins and how long it is. -/
def longestZeros : List UInt16 → Nat × Nat
  | [] => (0, 0)
  | g :: gs =>
    let (start, length) := longestZeros gs
    if length ≤ zeros (g :: gs) then (0, zeros (g :: gs)) else (start + 1, length)

/-- A single zero is written like any other group. -/
def text (gs : List UInt16) : List Char :=
  match gs with
  | [0, 0, 0, 0, 0, 0xFFFF, g, h] => "::ffff:".toList ++ (Octets.ofGroups g h).text
  | _ =>
    let (start, length) := longestZeros gs
    if length < 2 then colons gs
    else colons (gs.take start) ++ ':' :: ':' :: colons (gs.drop (start + length))

end Groups

namespace Address

def scopeText (scope : UInt32) : List Char :=
  if scope = 0 then [] else '%' :: Numeral.digits scope.toNat

def text : Address → List Char
  | .short o port => o.text ++ ':' :: Numeral.digits port.toNat
  | .long gs scope port =>
    '[' :: Groups.text gs.1 ++ scopeText scope ++ ']' :: ':' :: Numeral.digits port.toNat

def toString (a : Address) : String :=
  .ofList a.text

def port : Address → UInt16
  | .short _ port => port
  | .long _ _ port => port

def withPort (a : Address) (port : UInt16) : Address :=
  match a with
  | .short o _ => .short o port
  | .long gs scope _ => .long gs scope port

end Address

end SerialAck
