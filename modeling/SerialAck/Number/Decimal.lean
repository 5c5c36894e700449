/-
The decimal text of a number of 53 bits: the fewest digits that read back to the same number, the
closest of those, written without an exponent. Grids of decimals are tried from coarse to fine;
on each grid only the two neighbours of the number can read back to it.
-/
import SerialAck.Number.Binary64
import SerialAck.Number.Numeral

namespace SerialAck

/-- The decimal `digits · 10 ^ exponent`. -/
structure Decimal where
  digits : Nat
  exponent : Int
  deriving Repr, DecidableEq

namespace Decimal

open Binary64 (power nearest)

def value (d : Decimal) : Rat :=
  d.digits * power 10 d.exponent

/-- The two neighbours of `x` with the last place `10 ^ e`, the closer one first and the upper one
where they are equally close. -/
def neighbours (x : Rat) (e : Int) : Decimal × Decimal :=
  let unit := power 10 e
  let n := (x / unit).floor.toNat
  let below : Decimal := ⟨n, e⟩
  let above : Decimal := ⟨n + 1, e⟩
  if x - below.value < above.value - x then (below, above) else (above, below)

def readsBack (x : Rat) (d : Decimal) : Bool :=
  nearest d.value = x

/-- Tries the last places `e`, `e - 1`, …, as many as `tries`. -/
def search (x : Rat) : Nat → Int → Decimal
  | 0, _ => ⟨x.floor.toNat, 0⟩
  | tries + 1, e =>
    let (first, second) := neighbours x e
    if readsBack x first then first
    else if readsBack x second then second
    else search x tries (e - 1)

/-- The shortest decimal for a number of 53 bits. -/
def shortest (x : Rat) : Decimal :=
  if x = 0 then ⟨0, 0⟩
  else
    let places := (Numeral.digits x.floor.toNat).length
    search x (places + 1100) places

/-- The digits with the point after `n` of them, at least one before it and one behind it. -/
def withPoint (cs : List Char) (places : Nat) : List Char :=
  let padded := List.replicate (places + 1 - cs.length) '0' ++ cs
  let n := padded.length - places
  padded.take n ++ '.' :: padded.drop n

/-- No exponent and no needless zeros: a whole number is written without a point. -/
def positional (d : Decimal) : List Char :=
  match d.exponent with
  | .ofNat n => if d.digits = 0 then ['0'] else Numeral.digits d.digits ++ List.replicate n '0'
  | .negSucc n => withPoint (Numeral.digits d.digits) (n + 1)

def isWhole (d : Decimal) : Bool :=
  0 ≤ d.exponent

/-- The text of a number of 53 bits that is not negative. -/
def text (x : Rat) : String :=
  .ofList (shortest x).positional

/-- A power of ten, or nothing. -/
def isExponent : List Char → Bool
  | [] => true
  | c :: r =>
    let ds := match r with
      | '+' :: r | '-' :: r => r
      | r => r
    (c = 'e' || c = 'E') && ds ≠ [] && ds.all Char.isDigit

/-- Whether this is how a number may be written without a sign: with digits on at least one side of
the point, or as a word for what is beyond all numbers. -/
def isNumber (cs : List Char) : Bool :=
  let whole := cs.takeWhile Char.isDigit
  let (part, rest) := match cs.dropWhile Char.isDigit with
    | '.' :: r => (r.takeWhile Char.isDigit, r.dropWhile Char.isDigit)
    | r => ([], r)
  (whole ++ part ≠ [] && isExponent rest) ||
    String.ofList (cs.map Char.toLower) ∈ ["inf", "infinity", "nan"]

end Decimal

end SerialAck
