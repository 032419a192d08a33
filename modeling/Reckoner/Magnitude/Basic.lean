import Reckoner.Binary

/-!
# Magnitudes

The number in a quantity: a whole number in a signed register of 64 bits, or a
double. Whole numbers wrap around at the ends of the register, so a whole
number of any size has a place in it (`Int64.ofInt`), the one congruent to it
modulo `2 ^ 64`.

The kind of a magnitude is part of it: a real magnitude that happens to be an
integer stays real.
-/

namespace Reckoner

/-- The number in a quantity. -/
inductive Magnitude
  | whole (n : Int64)
  | real (x : Float)
deriving DecidableEq

namespace Magnitude

/-- The whole magnitude of an integer, wrapped into the register. -/
def ofInt (n : Int) : Magnitude :=
  .whole (Int64.ofInt n)

/-- The magnitude as a double, rounded to the nearest one. -/
def toReal : Magnitude → Float
  | whole n => Float.ofInt n.toInt
  | real x => x

/-- The magnitude is a whole number. -/
def isWhole : Magnitude → Bool
  | whole _ => true
  | real _ => false

/-- The magnitude is zero, of either sign. -/
def isZero : Magnitude → Bool
  | whole n => n == 0
  | real x => x == 0.0

end Magnitude

/-! ## Powers in the register -/

/-- `a ^ n` in the register, for an exponent below `2 ^ k`, by squaring. -/
def powerOfBits (a : Int64) : (k n : Nat) → Int64
  | 0, _ => 1
  | k + 1, n =>
    let root := powerOfBits a k (n / 2)
    if n % 2 = 0 then root * root else root * root * a

/-- `a ^ n` in the register, for an exponent below `2 ^ 64`. -/
def power (a : Int64) (n : Nat) : Int64 :=
  powerOfBits a 64 n

/-! ## Doubles -/

/-- The remainder of a division of doubles towards zero: exact, and of the sign
    of the dividend. An infinite divisor leaves the dividend as it is; an
    infinite dividend has no remainder. -/
def realRemainder (x y : Float) : Float :=
  if x.isNaN || y.isNaN || x.isInf || y == 0.0 then 0.0 / 0.0
  else if y.isInf then x
  else ((Binary.ofFloat x).remainder (Binary.ofFloat y)).toFloat

/-- The part of a double behind the point, with the sign of the double. -/
def realFraction (x : Float) : Float :=
  let zero : Float := if isNegative x then -0.0 else 0.0
  if x.isInf then zero
  else
    let part := x - (if x < 0.0 then x.ceil else x.floor)
    if part == 0.0 then zero else part

/-- The larger of two doubles; a number is larger than no number. -/
def realMax (x y : Float) : Float :=
  if x.isNaN then y
  else if y.isNaN then x
  else if y < x then x else y

/-- The smaller of two doubles; a number is smaller than no number. -/
def realMin (x y : Float) : Float :=
  if x.isNaN then y
  else if y.isNaN then x
  else if x < y then x else y

end Reckoner
