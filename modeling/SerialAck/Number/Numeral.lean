/-
Whole numbers as decimal text. `text` writes one without sign or leading zeros; the readers take
an optional sign and any number of leading zeros, look at the characters from left to right and
stop at the first that is no digit or makes the number leave its range.
-/
namespace SerialAck.Numeral

def digit (n : Nat) : Char :=
  .ofNat (48 + n)

def digits (n : Nat) : List Char :=
  if n < 10 then [digit n] else digits (n / 10) ++ [digit (n % 10)]

def text (n : Nat) : String :=
  .ofList (digits n)

def intText (n : Int) : String :=
  if n < 0 then "-" ++ text n.natAbs else text n.natAbs

inductive Fault where
  | empty | invalidDigit | tooLarge | tooSmall
  deriving Repr, DecidableEq

def Fault.text : Fault → String
  | .empty => "cannot parse integer from empty string"
  | .invalidDigit => "invalid digit found in string"
  | .tooLarge => "number too large to fit in target type"
  | .tooSmall => "number too small to fit in target type"

def digitValue? (c : Char) : Option Nat :=
  if '0' ≤ c ∧ c ≤ '9' then some (c.toNat - 48) else none

/-- Appends the digits `cs` to the number `n`, which may not exceed `limit`. -/
def extend (limit : Nat) (beyond : Fault) (n : Nat) : List Char → Except Fault Nat
  | [] => .ok n
  | c :: cs =>
    match digitValue? c with
    | none => .error .invalidDigit
    | some d => if n * 10 + d ≤ limit then extend limit beyond (n * 10 + d) cs else .error beyond

def magnitude (limit : Nat) (beyond : Fault) : List Char → Except Fault Nat
  | [] => .error .invalidDigit
  | cs => extend limit beyond 0 cs

/-- A whole number below 2^64, with an optional plus sign. -/
def readUnsigned : List Char → Except Fault Nat
  | [] => .error .empty
  | '+' :: cs => magnitude (UInt64.size - 1) .tooLarge cs
  | cs => magnitude (UInt64.size - 1) .tooLarge cs

/-- A whole number from -2^63 to 2^63 - 1, with an optional sign. -/
def readSigned : List Char → Except Fault Int
  | [] => .error .empty
  | '+' :: cs => (magnitude 0x7FFFFFFFFFFFFFFF .tooLarge cs).map Int.ofNat
  | '-' :: cs => (magnitude 0x8000000000000000 .tooSmall cs).map fun n => -Int.ofNat n
  | cs => (magnitude 0x7FFFFFFFFFFFFFFF .tooLarge cs).map Int.ofNat

end SerialAck.Numeral
