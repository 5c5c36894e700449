/-
Reading addresses. An octet has no needless zeros before it, a group at most four digits; the last
two groups may be written as octets, and one double colon stands for a run of zeros. A host may
also be a short address in the older way, with fewer parts and in other bases.
-/
import SerialAck.Address.Basic
import SerialAck.Text.Reader

namespace SerialAck.Address

/-- All the digits at the front, if there are any. -/
def digits (base : Nat) : Reader (List Char) := fun cs =>
  match cs.takeWhile (Hex.isDigitOf base) with
  | [] => none
  | ds => some (ds, cs.dropWhile (Hex.isDigitOf base))

/-- A decimal number of at most `limit`. -/
def number (limit : Nat) : Reader Nat := fun cs =>
  match digits 10 cs with
  | some (ds, r) =>
    if Hex.number 10 ds ≤ limit then some (Hex.number 10 ds, r) else none
  | none => none

def octet : Reader UInt8 := fun cs =>
  match digits 10 cs with
  | some (ds, r) =>
    if ds.length ≤ 3 ∧ (ds.length = 1 ∨ ds.head? ≠ some '0') ∧ Hex.number 10 ds ≤ 255 then
      some (.ofNat (Hex.number 10 ds), r)
    else none
  | none => none

def group : Reader UInt16 := fun cs =>
  match digits 16 cs with
  | some (ds, r) => if ds.length ≤ 4 then some (.ofNat (Hex.number 16 ds), r) else none
  | none => none

def mark (c : Char) : List Char → Option (List Char)
  | [] => none
  | d :: r => if d = c then some r else none

def octets : Reader Octets := fun cs => do
  let (a, r) ← octet cs
  let (b, r) ← octet (← mark '.' r)
  let (c, r) ← octet (← mark '.' r)
  let (d, r) ← octet (← mark '.' r)
  return (⟨a, b, c, d⟩, r)

/-- What comes next in a list with colons between its elements. -/
def next {α : Type} (first : Bool) (read : Reader α) : Reader α := fun cs =>
  if first then read cs else (mark ':' cs).bind read

/-- As many groups as there are, but at most `room`; whether the last two were octets. -/
def groups (first : Bool) : Nat → List Char → List UInt16 × Bool × List Char
  | 0, cs => ([], false, cs)
  | room + 1, cs =>
    match if room = 0 then none else next first octets cs with
    | some (o, r) => (o.groups, true, r)
    | none =>
      match next first group cs with
      | none => ([], false, cs)
      | some (g, r) => (g :: (groups false room r).1, (groups false room r).2)

/-- Eight groups, or fewer with a double colon among them. -/
def fill (head tail : List UInt16) : List UInt16 :=
  head ++ List.replicate (8 - head.length - tail.length) 0 ++ tail

def ofList? (gs : List UInt16) : Option Groups :=
  if h : gs.length = 8 then some ⟨gs, h⟩ else none

def allGroups : Reader Groups := fun cs =>
  let (head, dotted, r) := groups true 8 cs
  if head.length = 8 then (ofList? head).map fun gs => (gs, r)
  else if dotted then none
  else
    match r with
    | ':' :: ':' :: r =>
      let (tail, _, r) := groups true (7 - head.length) r
      (ofList? (fill head tail)).map fun gs => (gs, r)
    | _ => none

def portNumber : Reader UInt16 := fun cs => do
  let (n, r) ← number 65535 (← mark ':' cs)
  return (.ofNat n, r)

/-- The interface behind a percent sign, 0 where there is none. -/
def scope (cs : List Char) : UInt32 × List Char :=
  match (mark '%' cs).bind (number (UInt32.size - 1)) with
  | some (n, r) => (.ofNat n, r)
  | none => (0, cs)

def readShort : Reader Address := fun cs => do
  let (o, r) ← octets cs
  let (port, r) ← portNumber r
  return (.short o port, r)

def readLong : Reader Address := fun cs => do
  let (gs, r) ← allGroups (← mark '[' cs)
  let (scope, r) := scope r
  let (port, r) ← portNumber (← mark ']' r)
  return (.long gs scope port, r)

def parse? (s : String) : Option Address :=
  match (readShort s.toList).or (readLong s.toList) with
  | some (a, []) => some a
  | _ => none

/-- Digits of one base and nothing else. -/
def numeral? (base : Nat) (ds : List Char) : Option Nat :=
  if ds ≠ [] ∧ ds.all (Hex.isDigitOf base) then some (Hex.number base ds) else none

/-- A number in decimal, behind a zero in octal, or behind `0x` in hexadecimal. -/
def part? : List Char → Option Nat
  | '0' :: c :: r => if c = 'x' ∨ c = 'X' then numeral? 16 r else numeral? 8 (c :: r)
  | cs => numeral? 10 cs

/-- The number that parts make up. Each is an octet but the last, which fills what is left. -/
def join? : Nat → List Nat → Option Nat
  | 0, _ | _, [] => none
  | room + 1, [p] => if p < 256 ^ (room + 1) then some p else none
  | room + 1, p :: ps => if p < 256 then (join? room ps).map (p * 256 ^ room + ·) else none

/-- A short address in up to four parts, as `127.1` or `0x7f000001`. -/
def loose? (cs : List Char) : Option Octets :=
  (((cs.splitOn '.').mapM part?).bind (join? 4)).map Octets.ofNat

/-- An address that a host is named by instead of a name, as yet without a port. -/
def ofHost? (host : String) (port : UInt16) : Option Address :=
  match octets host.toList with
  | some (o, []) => some (.short o port)
  | _ =>
    match allGroups host.toList with
    | some (gs, []) => some (.long gs 0 port)
    | _ => (loose? host.toList).map (.short · port)

end SerialAck.Address
