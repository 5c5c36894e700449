/-
Spans of time, in whole nanoseconds. `seconds` is the span as messages tell it: two numbers of 53
bits, the seconds and the fraction, added with that precision.
-/
import SerialAck.Number.Decimal

namespace SerialAck

structure Duration where
  nanoseconds : Nat
  deriving Repr, DecidableEq

namespace Duration

def second : Nat := 1000000000

def millisecond : Nat := 1000000

def ofSeconds (n : Nat) : Duration :=
  ⟨n * second⟩

def ofMilliseconds (n : Nat) : Duration :=
  ⟨n * millisecond⟩

def wholeSeconds (d : Duration) : Nat :=
  d.nanoseconds / second

/-- The nanoseconds beyond the last whole second. -/
def subsecond (d : Duration) : Nat :=
  d.nanoseconds % second

/-- Clocks tick in milliseconds, and a span takes as many ticks as cover it. -/
def milliseconds (d : Duration) : Nat :=
  (d.nanoseconds + (millisecond - 1)) / millisecond

def seconds (d : Duration) : Rat :=
  Binary64.nearest (Binary64.nearest d.wholeSeconds + Binary64.nearest (mkRat d.subsecond second))

/-- The seconds as the shortest decimal. -/
def text (d : Duration) : String :=
  Decimal.text d.seconds

/-- The exact span in the largest unit of which it has at least one. -/
def exactText (d : Duration) : String :=
  let n := d.nanoseconds
  let (places, unit) :=
    if second ≤ n then (9, "s") else if millisecond ≤ n then (6, "ms")
    else if 1000 ≤ n then (3, "µs") else (0, "ns")
  let whole := n / Nat.pow 10 places
  let part := Numeral.digits (Nat.pow 10 places + n % Nat.pow 10 places)
  let part := ((part.drop 1).reverse.dropWhile (· == '0')).reverse
  Numeral.text whole ++ (if part.isEmpty then "" else "." ++ .ofList part) ++ unit

end Duration

end SerialAck
