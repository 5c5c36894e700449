/-
Numbers, truth values and moments in documents. None of them holds a blank but a moment, between
its date and its time, so each is a word that is read as a whole.
-/
import SerialAck.Document.Basic
import SerialAck.Document.Moment
import SerialAck.Document.Quoted
import SerialAck.Number.Binary64

namespace SerialAck.Document.Scalar

/-- Digits with single underscores between them, less the underscores. -/
def ungroup? (isDigit : Char → Bool) : List Char → Option (List Char)
  | [] => none
  | [c] => if isDigit c then some [c] else none
  | c :: '_' :: r => if isDigit c then (ungroup? isDigit r).map (c :: ·) else none
  | c :: r => if isDigit c then (ungroup? isDigit r).map (c :: ·) else none

def natural? (base : Nat) (cs : List Char) : Option Nat :=
  (ungroup? (Hex.isDigitOf base) cs).map (Hex.number base)

/-- Decimal digits that begin with no needless zero. -/
def whole? (cs : List Char) : Option (List Char) :=
  (ungroup? (Hex.isDigitOf 10) cs).filter fun ds => ds.length = 1 ∨ ds.head? ≠ some '0'

/-- Takes off a sign, if there is one: whether it was a minus, and the rest. -/
def sign : List Char → Bool × List Char
  | '-' :: r => (true, r)
  | '+' :: r => (false, r)
  | r => (false, r)

def signed (negative : Bool) (n : Nat) : Int :=
  if negative then -n else n

/-- A whole number in decimal with a sign, or without one in another base. -/
def integer? : List Char → Option Int
  | '0' :: 'x' :: r => (natural? 16 r).map Int.ofNat
  | '0' :: 'o' :: r => (natural? 8 r).map Int.ofNat
  | '0' :: 'b' :: r => (natural? 2 r).map Int.ofNat
  | cs => (whole? (sign cs).2).map fun ds => signed (sign cs).1 (Hex.number 10 ds)

/-- Documents hold whole numbers of 64 bits. -/
def inRange (n : Int) : Bool :=
  -0x8000000000000000 ≤ n ∧ n ≤ 0x7FFFFFFFFFFFFFFF

/-- Digits behind a point, and what follows them. Without a point there are none. -/
def fraction : Reader (List Char)
  | '.' :: r =>
    let isPart c := Hex.isDigitOf 10 c || c == '_'
    (ungroup? (Hex.isDigitOf 10) (r.takeWhile isPart)).map fun ds => (ds, r.dropWhile isPart)
  | r => some ([], r)

/-- The power of ten behind digits. It is the last thing in a number. -/
def exponent? : List Char → Option Int
  | [] => some 0
  | c :: r =>
    if c = 'e' ∨ c = 'E' then
      (natural? 10 (sign r).2).map fun n => signed (sign r).1 n
    else none

/-- The nearest number of 53 bits, if it is not beyond all of them. Powers of ten that are out of
reach are not computed. -/
def magnitude? (ds : List Char) (exponent : Int) : Option Rat :=
  let n := Hex.number 10 ds
  let size := (Numeral.digits n).length + exponent
  if n = 0 ∨ size < -330 then some 0
  else if 310 < size then none
  else
    let x := Binary64.nearest (n * Binary64.power 10 exponent)
    if x < Binary64.overflow then some x else none

/-- A number with a point or a power of ten. Only below zero may it be beyond all numbers. -/
def finite? (cs : List Char) : Option RealNumber := do
  let (negative, cs) := sign cs
  let isPart c := Hex.isDigitOf 10 c || c == '_'
  let ds ← whole? (cs.takeWhile isPart)
  let rest := cs.dropWhile isPart
  if rest = [] then none
  let (part, rest) ← fraction rest
  let e ← exponent? rest
  match magnitude? (ds ++ part) (e - part.length) with
  | some x => return .finite negative x
  | none => if negative then return .infinite true else none

def real? (cs : List Char) : Option RealNumber :=
  let (negative, word) := sign cs
  if word = ['i', 'n', 'f'] then some (.infinite negative)
  else if word = ['n', 'a', 'n'] then some .nan
  else finite? cs

def value? (cs : List Char) : Option Value :=
  if cs = ['t', 'r', 'u', 'e'] then some (.boolean true)
  else if cs = ['f', 'a', 'l', 's', 'e'] then some (.boolean false)
  else
    match integer? cs with
    | some n => if inRange n then some (.integer n) else none
    | none =>
      match real? cs with
      | some x => some (.real x)
      | none => if Moment.isMoment cs then some .moment else none

def isPart (c : Char) : Bool :=
  c.isAlphanum || c ∈ ['+', '-', '_', '.', ':']

/-- The word at the front. Behind a date a time counts as its second half. -/
def word (cs : List Char) : List Char × List Char :=
  let first := cs.takeWhile isPart
  match cs.dropWhile isPart with
  | ' ' :: d :: r =>
    if d.isDigit ∧ Moment.isDate first then
      (first ++ ' ' :: (d :: r).takeWhile isPart, (d :: r).dropWhile isPart)
    else (first, ' ' :: d :: r)
  | rest => (first, rest)

def scalar : Reader Value := fun cs =>
  (value? (word cs).1).map fun v => (v, (word cs).2)

end SerialAck.Document.Scalar
