import Reckoner.Binary
import Reckoner.Decimal.Basic

/-!
# The shortest decimal of a double

Of the decimals that are rounded to a given double, the one with the fewest
digits, and of those the nearest to the double (`shortest`). It is found in
exact arithmetic: for one digit, two, and so on up to seventeen, which always
suffice, the two neighbours of the double among the decimals of that many
digits are compared with the interval of numbers rounded to the double.

The plain text of a double (`plainText`) writes that decimal.
-/

namespace Reckoner

namespace Binary

/-- The number `c · 10 ^ shift` is rounded to the positive fraction `b`, a
    double: it lies between the midpoints to the neighbouring doubles, or on
    one of them where the mantissa is even. Below a power of two the
    neighbour is only half as far away. -/
def rounds (b : Binary) (c : Nat) (shift : Int) : Bool :=
  let quarter := b.exponent - 2
  let atPower := b.mantissa = Nat.pow 2 52 ∧ -1074 < b.exponent
  let low := if atPower then 4 * b.mantissa - 1 else 4 * b.mantissa - 2
  let high := 4 * b.mantissa + 2
  let here := c * Nat.pow 10 shift.toNat * Nat.pow 2 (-quarter).toNat
  let scale := Nat.pow 2 quarter.toNat * Nat.pow 10 (-shift).toNat
  if b.mantissa % 2 = 0 then low * scale ≤ here && here ≤ high * scale
  else low * scale < here && here < high * scale

/-- The decimal of `count` digits that is rounded to the positive fraction `b`
    and nearest to it, if there is one. -/
def shortened? (b : Binary) (count : Nat) : Option Nat :=
  let shift := Decimal.leadingExponent b.numerator b.denominator + 1 - count
  let num := b.numerator * Nat.pow 10 (-shift).toNat
  let den := b.denominator * Nat.pow 10 shift.toNat
  let below := num / den
  let nearest := Decimal.roundDiv num den
  let other := if nearest = below then below + 1 else below
  if b.rounds nearest shift then some nearest
  else if b.rounds other shift then some other
  else none

/-- The shortest decimal that is rounded to the size of `b`. -/
def shortest (b : Binary) : Decimal :=
  if b.mantissa = 0 then ⟨['0'], 0⟩
  else
    let e := Decimal.leadingExponent b.numerator b.denominator
    match (List.range 17).findSome? fun k => (b.shortened? (k + 1)).map fun c => (k, c) with
    | some (k, c) =>
      let digits := Decimal.digitsOf c
      (⟨digits, e + digits.length - (k + 1)⟩ : Decimal).trimmed
    | none => Decimal.leading b.numerator b.denominator 17

end Binary

/-- The plain text of a finite double: its shortest decimal, positional with at
    least one place behind the point from `1e-4` up to `1e16`, and scientific
    beyond. -/
def finiteText (x : Float) : List Char :=
  let b := Binary.ofFloat x
  let d := b.shortest
  let size :=
    if d.exponent < -4 || 16 ≤ d.exponent then d.scientific false
    else
      let (whole, fraction) := d.places
      Decimal.pointed false whole (if fraction.isEmpty then ['0'] else fraction)
  if b.negative then '-' :: size else size

/-- The words for the doubles that have no digits. -/
def specialText? (x : Float) : Option String :=
  if x.isNaN then some "nan"
  else if x.isInf then some (if 0.0 < x then "inf" else "-inf")
  else none

/-- The plain text of a double. -/
def plainText (x : Float) : String :=
  (specialText? x).getD (String.ofList (finiteText x))

end Reckoner
