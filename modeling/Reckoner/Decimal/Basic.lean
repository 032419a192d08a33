/-!
# Decimals

A decimal is a run of digits with the power of ten of the first of them: the
digits `1 2 5` with exponent `-1` are `1.25e-1`, or `0.125`. It is written
positionally or in scientific notation (`positional`, `scientific`).

A fraction of natural numbers is rounded to a decimal of a given number of
digits (`leading`) or to a given number of places (`fixed`), in exact
arithmetic, a half going to the even neighbour.
-/

namespace Reckoner

/-- A decimal `d₀.d₁d₂… · 10 ^ exponent`. -/
structure Decimal where
  /-- The digits, the first in front of the point. -/
  digits : List Char
  /-- The power of ten of the first digit. -/
  exponent : Int
deriving DecidableEq

namespace Decimal

/-! ## Rounding -/

/-- The natural number nearest to `num / den`; of two, the even one. -/
def roundDiv (num den : Nat) : Nat :=
  let q := num / den
  let r := num % den
  if 2 * r < den then q
  else if den < 2 * r then q + 1
  else if q % 2 = 0 then q
  else q + 1

/-- The natural number nearest to `num / den · 10 ^ shift`. -/
def roundShifted (num den : Nat) (shift : Int) : Nat :=
  roundDiv (num * Nat.pow 10 shift.toNat) (den * Nat.pow 10 (-shift).toNat)

/-- The decimal digits of a natural number. -/
def digitsOf (n : Nat) : List Char :=
  Nat.toDigits 10 n

/-- The exponent `e` with `10 ^ e ≤ num / den < 10 ^ (e + 1)`, for a positive
    fraction. -/
def leadingExponent (num den : Nat) : Int :=
  if den ≤ num then ((digitsOf (num / den)).length : Int) - 1
  else -((digitsOf ((den - 1) / num)).length : Int)

/-- The fraction rounded to `count` digits, at least one. Rounding up to the
    next power of ten moves the exponent; zero has the exponent zero. -/
def leading (num den count : Nat) : Decimal :=
  if num = 0 then ⟨List.replicate count '0', 0⟩
  else
    let e := leadingExponent num den
    let c := roundShifted num den ((count : Int) - 1 - e)
    if c = Nat.pow 10 count then ⟨digitsOf (Nat.pow 10 (count - 1)), e + 1⟩ else ⟨digitsOf c, e⟩

/-! ## Writing -/

/-- Digits before and behind a point. The point is left out where nothing is
    behind it, unless it is to be kept. -/
def pointed (keepPoint : Bool) (whole fraction : List Char) : List Char :=
  if fraction.isEmpty && !keepPoint then whole else whole ++ '.' :: fraction

/-- A fraction with a fixed number of places. -/
def fixed (keepPoint : Bool) (num den places : Nat) : List Char :=
  let digits := digitsOf (roundShifted num den places)
  let padded := List.replicate (places + 1 - digits.length) '0' ++ digits
  pointed keepPoint (padded.take (padded.length - places)) (padded.drop (padded.length - places))

/-- The digits before and behind the point, written positionally. -/
def places (d : Decimal) : List Char × List Char :=
  if d.exponent < 0 then
    (['0'], List.replicate (-d.exponent - 1).toNat '0' ++ d.digits)
  else
    let before := d.exponent.toNat + 1
    (d.digits.take before ++ List.replicate (before - d.digits.length) '0', d.digits.drop before)

/-- A decimal in positional notation. -/
def positional (keepPoint : Bool) (d : Decimal) : List Char :=
  pointed keepPoint d.places.1 d.places.2

/-- An exponent: a sign and two digits or more. -/
def exponentText (e : Int) : List Char :=
  let digits := digitsOf e.natAbs
  (if e < 0 then '-' else '+') :: (List.replicate (2 - digits.length) '0' ++ digits)

/-- A decimal in scientific notation. -/
def scientific (keepPoint : Bool) (d : Decimal) : List Char :=
  pointed keepPoint (d.digits.take 1) (d.digits.drop 1) ++ 'e' :: exponentText d.exponent

/-- The decimal without the zeros at its end; the first digit stays. -/
def trimmed (d : Decimal) : Decimal :=
  match d.digits with
  | [] => d
  | first :: others => ⟨first :: (others.reverse.dropWhile (· == '0')).reverse, d.exponent⟩

/-- A fraction with `count` digits, positional from the fourth place behind the
    point up to those digits and scientific beyond; zeros at the end only where
    they are to be kept. -/
def general (keepZeros : Bool) (num den count : Nat) : List Char :=
  let rounded := leading num den count
  let d := if keepZeros then rounded else rounded.trimmed
  if rounded.exponent < -4 || (count : Int) ≤ rounded.exponent then d.scientific keepZeros
  else d.positional keepZeros

end Decimal

end Reckoner
