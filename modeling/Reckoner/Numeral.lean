import Reckoner.Magnitude.Basic
import Reckoner.Message
import Reckoner.Text.Scan

/-!
# Numerals

A decimal numeral is a run of digits, with a minus sign right in front of it or
without, and with a point and places or without. With a point it stands for a
real number, without for a whole one of any size.

A point can come first, and counts as following a zero. The sign belongs to the
numeral only in front of a digit: `-.5` has no numeral at its head, and the one
in `.5` is positive.

How many digits the numeral of a whole number may have to be taken for its
number is up to where the calculator runs (`DigitLimit`).
-/

namespace Reckoner

/-- The limit there is on the digits of a whole number, leading zeros included. -/
class DigitLimit where
  /-- The most digits, if there is a limit at all. -/
  most? : Option Nat
  /-- No limit is set lower than this. -/
  le_most : ∀ most ∈ most?, 640 ≤ most

namespace DigitLimit

/-- The limit that is set unless another one is. -/
instance usual : DigitLimit where
  most? := some 4300
  le_most _ h := Option.some.inj h ▸ by decide

end DigitLimit

/-- A decimal numeral. -/
structure Numeral where
  negative : Bool
  /-- The digits before the point. -/
  whole : List Char
  /-- The digits behind the point, if there is one. -/
  places : Option (List Char)
deriving DecidableEq

namespace Numeral

/-- The sign at the head of a text, in front of a digit. -/
def readSign : List Char → Bool × List Char
  | '-' :: rest => if Text.startsDigit rest then (true, rest) else (false, '-' :: rest)
  | text => (false, text)

/-- The point at the head of a text, and the places behind it. -/
def readPlaces : List Char → Option (List Char) × List Char
  | '.' :: rest => (some (rest.takeWhile Char.isDigit), rest.dropWhile Char.isDigit)
  | text => (none, text)

/-- The longest numeral at the head of a text that begins with one. -/
def read (text : List Char) : Numeral × List Char :=
  let (negative, text) := readSign text
  let (places, rest) := readPlaces (text.dropWhile Char.isDigit)
  (⟨negative, text.takeWhile Char.isDigit, places⟩, rest)

/-- The digits before the point, as they are written. -/
def wholeDigits (n : Numeral) : List Char :=
  if n.whole.isEmpty then ['0'] else n.whole

/-- The numeral as it is written, a zero in front of a leading point. -/
def text (n : Numeral) : List Char :=
  let size := match n.places with
    | some places => n.wholeDigits ++ '.' :: places
    | none => n.wholeDigits
  if n.negative then '-' :: size else size

/-- What keeps the numeral of a whole number from being taken for its number, if it has
    too many digits. -/
def fault? [DigitLimit] (n : Numeral) : Option Fault :=
  match n.places with
  | some _ => none
  | none =>
    (DigitLimit.most?.filter (· < n.whole.length)).map (.tooManyDigits · n.whole.length)

/-- The numeral exceeds no limit. -/
def Fits [DigitLimit] (n : Numeral) : Prop :=
  n.fault? = none

instance [DigitLimit] (n : Numeral) : Decidable n.Fits :=
  inferInstanceAs (Decidable (n.fault? = none))

section

variable [DigitLimit] {n : Numeral}

theorem fault?_eq_some_iff {f : Fault} :
    n.fault? = some f ↔ n.places = none ∧ ∃ most, DigitLimit.most? = some most ∧
      most < n.whole.length ∧ f = .tooManyDigits most n.whole.length := by
  rw [fault?]
  cases n.places <;> simp [Option.filter_eq_some_iff, and_assoc, eq_comm (a := f)]

theorem fits_of_places {places : List Char} (h : n.places = some places) : n.Fits := by
  rw [Fits, fault?, h]

/-- As many digits as any limit allows are not too many. -/
theorem fits_of_length_le (h : n.whole.length ≤ 640) : n.Fits := by
  rw [Fits, Option.eq_none_iff_forall_ne_some]
  intro f hf
  obtain ⟨-, most, hlimit, hlt, -⟩ := fault?_eq_some_iff.1 hf
  have hle := DigitLimit.le_most most hlimit
  omega

end

/-- The number a numeral stands for, of however many digits. -/
def magnitude (n : Numeral) : Magnitude :=
  match n.places with
  | some places =>
    let size := Float.ofScientific (Text.valueIn 10 (n.whole ++ places)) true places.length
    .real (if n.negative then -size else size)
  | none =>
    let size : Int := Text.valueIn 10 n.whole
    .ofInt (if n.negative then -size else size)

end Numeral

end Reckoner
