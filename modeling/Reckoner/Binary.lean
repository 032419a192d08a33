/-!
# Binary fractions

A finite double is a binary fraction, `± m · 2 ^ q` with natural `m`. Taken
apart (`Binary.ofFloat`), it can be printed, truncated and divided with
remainder in exact arithmetic; put together (`Binary.toFloat`), a fraction is
rounded to the nearest double, so one that is a double stays what it was.
-/

namespace Reckoner

/-- A number `± m · 2 ^ q`. Zero has both signs. -/
structure Binary where
  /-- The sign is a minus. -/
  negative : Bool
  /-- The number `m`. -/
  mantissa : Nat
  /-- The number `q`. -/
  exponent : Int
deriving DecidableEq

/-- The sign bit of a double, also of zeros and infinities. -/
def isNegative (x : Float) : Bool :=
  x.toBits >>> 63 == 1

namespace Binary

/-- The fraction that a finite double is. -/
def ofFloat (x : Float) : Binary :=
  let bits : Nat := x.toBits.toNat
  let field : Nat := bits / Nat.pow 2 52 % Nat.pow 2 11
  let low : Nat := bits % Nat.pow 2 52
  if field = 0 then ⟨isNegative x, low, -1074⟩
  else ⟨isNegative x, low + Nat.pow 2 52, (field : Int) - 1075⟩

/-- The numerator of the size of a fraction. -/
def numerator (b : Binary) : Nat :=
  b.mantissa * Nat.pow 2 b.exponent.toNat

/-- The denominator of the size of a fraction, a power of two. -/
def denominator (b : Binary) : Nat :=
  Nat.pow 2 (-b.exponent).toNat

/-- The double nearest to a fraction. Below the point a power of two is a power
    of ten over one of five, which makes a decimal of the fraction. -/
def toFloat (b : Binary) : Float :=
  let size :=
    if b.exponent < 0 then
      Float.ofScientific (b.mantissa * Nat.pow 5 (-b.exponent).toNat) true (-b.exponent).toNat
    else Float.ofScientific b.numerator false 0
  if b.negative then -size else size

/-- The whole part, cut off towards zero. -/
def truncate (b : Binary) : Int :=
  let size : Int := b.numerator / b.denominator
  if b.negative then -size else size

/-- The remainder after dividing `a` by a nonzero `b` towards zero; it has the
    sign of `a`. -/
def remainder (a b : Binary) : Binary :=
  let q := min a.exponent b.exponent
  let m := a.mantissa * Nat.pow 2 (a.exponent - q).toNat
  let n := b.mantissa * Nat.pow 2 (b.exponent - q).toNat
  ⟨a.negative, m % n, q⟩

end Binary

end Reckoner
