/-
Arithmetic with 53 significant bits. Such numbers are rationals here, and `nearest` is where the
precision ends: it sends a rational to the closest one that has a significand of 53 bits and an
exponent of at least -1074, the even one of two that are equally close.
-/
namespace SerialAck.Binary64

def power (base : Nat) : Int → Rat
  | .ofNat n => (base.pow n : Rat)
  | .negSucc n => mkRat 1 (base.pow (n + 1))

/-- The closest whole number, the even one at a half. -/
def roundEven (x : Rat) : Int :=
  let n := x.floor
  if x - n < 1 / 2 then n
  else if 1 / 2 < x - n then n + 1
  else n + n % 2

/-- The greatest power of two that a positive `x` reaches, by its exponent. -/
def exponent (x : Rat) : Int :=
  let e := (x.num.natAbs.log2 : Int) - (x.den.log2 : Int)
  if power 2 e ≤ x then e else e - 1

/-- The distance between neighbours around `x`. -/
def spacing (x : Rat) : Rat :=
  power 2 (max (exponent x - 52) (-1074))

/-- The closest number of 53 bits to an `x` that is not negative. -/
def nearest (x : Rat) : Rat :=
  if x = 0 then 0 else spacing x * (roundEven (x / spacing x) : Rat)

/-- From here on the nearest number would need a greater exponent than there is. -/
def overflow : Rat :=
  power 2 1024

end SerialAck.Binary64
