import Reckoner.Proofs.Magnitude.Nonzero
import Reckoner.Magnitude.Arithmetic

/-!
# Guarded arithmetic

Quotients, remainders and powers of whole numbers and the reciprocal of a double
are not defined everywhere. Here each of them is *guarded*: outside the range in
which it is defined it raises an alarm (`Alarm`), and what that leads to is left
open. The operations on magnitudes computed with guarded steps, as
`Arithmetic.guarded` and `Elementary.guarded` do, are those computed without
(`Arithmetic.guarded_eq`, `Elementary.guarded_eq`), whatever an alarm would
lead to: none is ever raised, as division by zero is refused before.
-/

namespace Reckoner

/-- What must never happen on the way. -/
inductive Breach
  /-- There is no value on the stack at the place that is used. -/
  | noValue
  /-- The divisor is zero. -/
  | zeroDivisor
  /-- The exponent of a whole power is negative. -/
  | negativeExponent
  /-- A text is taken for a numeral and is none. -/
  | noNumeral

/-- What breaches lead to. -/
abbrev Alarm (ε σ : Type) := ∀ α : Type, Breach → EStateM ε σ α

variable {ε σ : Type}

namespace Guarded

variable (alarm : Alarm ε σ)

/-- The quotient of whole numbers, rounded down. -/
def quotient (a b : Int) : EStateM ε σ Int :=
  if b = 0 then alarm Int .zeroDivisor else return a.fdiv b

/-- The remainder of a division rounded down. -/
def remainder (a b : Int) : EStateM ε σ Int :=
  if b = 0 then alarm Int .zeroDivisor else return a.fmod b

/-- The power of a whole number up to multiples of the modulus. -/
def power (a n modulus : Int) : EStateM ε σ Int :=
  if modulus = 0 then alarm Int .zeroDivisor
  else if n < 0 then alarm Int .negativeExponent
  else return (a ^ n.toNat).fmod modulus

/-- The reciprocal of a double. -/
def reciprocal (x : Float) : EStateM ε σ Float :=
  if x == 0.0 then alarm Float .zeroDivisor else return 1.0 / x

end Guarded

/-! ## The register -/

theorem int64_ofInt_bmod (n : Int) : Int64.ofInt (n.bmod Int64.size) = Int64.ofInt n := by
  rw [← Int64.toInt_ofInt, Int64.ofInt_toInt]

/-- Numbers that are congruent have one place in the register. -/
theorem int64_ofInt_fmod (n : Int) : Int64.ofInt (n.fmod (2 ^ 64)) = Int64.ofInt n := by
  rw [← int64_ofInt_bmod (n.fmod _), ← int64_ofInt_bmod n, Int.fmod_eq_emod_of_nonneg _ (by decide)]
  exact congrArg Int64.ofInt (Int.emod_bmod n Int64.size)

/-- Squaring computes the power. -/
theorem powerOfBits_eq (a : Int64) {k n : Nat} (hn : n < 2 ^ k) :
    powerOfBits a k n = Int64.ofInt (a.toInt ^ n) := by
  induction k generalizing n with
  | zero =>
    obtain rfl : n = 0 := by omega
    rw [pow_zero]
    rfl
  | succ k ih =>
    have hroot := ih (n := n / 2) (by omega)
    have hhalves : a.toInt ^ (n / 2) * a.toInt ^ (n / 2) = a.toInt ^ (n / 2 * 2) := by
      rw [← pow_add, Nat.mul_two]
    simp only [powerOfBits, hroot]
    split
    · rw [← Int64.ofInt_mul, hhalves, Nat.div_mul_cancel (by omega)]
    · have hodd : n = n / 2 * 2 + 1 := by omega
      conv_rhs =>
        rw [hodd, pow_succ, Int64.ofInt_mul, ← hhalves, Int64.ofInt_mul, Int64.ofInt_toInt]

/-- In the register, a guarded power is the power there. -/
theorem Guarded.power_bind (alarm : Alarm ε σ) (a : Int64) {n : Int64} (hn : ¬n.toInt < 0)
    {α : Type} (f : Magnitude → EStateM ε σ α) :
    (power alarm a.toInt n.toInt (2 ^ 64) >>= fun k => f (.ofInt k)) =
      f (.whole (Reckoner.power a n.toInt.toNat)) := by
  have hpower : Reckoner.power a n.toInt.toNat = Int64.ofInt (a.toInt ^ n.toInt.toNat) :=
    powerOfBits_eq a (by have := n.toInt_lt; omega)
  rw [power, if_neg (by decide), if_neg hn, pure_bind, Magnitude.ofInt, int64_ofInt_fmod, hpower]

/-- The remainder that has the sign of the dividend is that of the sizes, with
    this sign. -/
theorem tmod_eq (a b : Int) :
    a.tmod b =
      if a < 0 then -((a.natAbs : Int).fmod b.natAbs) else (a.natAbs : Int).fmod b.natAbs := by
  have hsize : a.tmod b = a.tmod b.natAbs := by
    rcases Int.natAbs_eq b with hb | hb
    · rw [← hb]
    · rw [hb, Int.tmod_neg, Int.natAbs_neg, Int.natAbs_natCast]
  rw [hsize, ← Int.ofNat_fmod, Int.ofNat_tmod]
  split
  · rw [← Int.neg_tmod]
    congr 1
    omega
  · congr 1
    omega

/-! ## Operations -/

namespace Arithmetic

variable (alarm : Alarm ε σ)

/-- The operation on whole numbers with guarded steps. -/
def guardedOnWhole (m n : Int64) : Arithmetic → EStateM ε σ Magnitude
  | div => do
    if (← Guarded.remainder alarm m.toInt n.toInt) = 0 then
      return .ofInt (← Guarded.quotient alarm m.toInt n.toInt)
    else return .real (Float.ofInt m.toInt / Float.ofInt n.toInt)
  | mod => do
    let size ← Guarded.remainder alarm m.toInt.natAbs n.toInt.natAbs
    return .ofInt (if m.toInt < 0 then -size else size)
  | pow => do
    if n.toInt < 0 then return .real (Float.pow (Float.ofInt m.toInt) (Float.ofInt n.toInt))
    else return .ofInt (← Guarded.power alarm m.toInt n.toInt (2 ^ 64))
  | root => do
    let degree ← Guarded.reciprocal alarm (Float.ofInt n.toInt)
    return .real (Float.pow (Float.ofInt m.toInt) degree)
  | op => return onWhole m n op

/-- The operation on doubles with guarded steps. -/
def guardedOnReal (x y : Float) : Arithmetic → EStateM ε σ Float
  | root => return Float.pow x (← Guarded.reciprocal alarm y)
  | op => return onReal x y op

/-- The operation with guarded steps; there is no result if the second number is
    zero and the operation divides by it. -/
def guarded (a b : Magnitude) (op : Arithmetic) : EStateM ε σ (Option Magnitude) := do
  if op.divides && b.isZero then return none
  else
    match a, b with
    | .whole m, .whole n => return some (← op.guardedOnWhole alarm m n)
    | a, b => return some (.real (← op.guardedOnReal alarm a.toReal b.toReal))

theorem guardedOnWhole_eq {op : Arithmetic} (m : Int64) {n : Int64}
    (hn : op.divides = true → n ≠ 0) : op.guardedOnWhole alarm m n = pure (onWhole m n op) := by
  have hint (h : op.divides = true) : n.toInt ≠ 0 := fun hzero =>
    hn h (Int64.toInt_inj.1 (hzero.trans Int64.toInt_zero.symm))
  cases op with
  | div =>
    have hne := hint rfl
    rw [guardedOnWhole, Guarded.remainder, if_neg hne, Guarded.quotient, if_neg hne, onWhole,
      quotient]
    simp only [pure_bind]
    by_cases hdvd : n.toInt ∣ m.toInt
    · rw [if_pos (Int.dvd_iff_fmod_eq_zero.1 hdvd), if_pos (Int.emod_eq_zero_of_dvd hdvd),
        Int.fdiv_eq_ediv_of_dvd hdvd]
    · rw [if_neg fun h => hdvd (Int.dvd_of_fmod_eq_zero h),
        if_neg fun h => hdvd (Int.dvd_of_emod_eq_zero h)]
  | mod =>
    have hne := hint rfl
    rw [guardedOnWhole, Guarded.remainder, if_neg (by omega), onWhole, tmod_eq]
    rfl
  | pow =>
    rw [guardedOnWhole, onWhole]
    split
    · rfl
    · rename_i hneg
      exact Guarded.power_bind alarm m hneg pure
  | root =>
    rw [guardedOnWhole, Guarded.reciprocal, ofInt_beq_zero (hint rfl)]
    rfl
  | add | sub | mul | max | min => rfl

theorem guardedOnReal_eq {op : Arithmetic} (x : Float) {y : Float}
    (hy : op.divides = true → (y == 0.0) = false) :
    op.guardedOnReal alarm x y = pure (onReal x y op) := by
  cases op with
  | root =>
    rw [guardedOnReal, Guarded.reciprocal, hy rfl]
    rfl
  | add | sub | mul | div | pow | mod | max | min => rfl

/-- No step of an operation raises an alarm. -/
theorem guarded_eq (op : Arithmetic) (a b : Magnitude) :
    op.guarded alarm a b = pure (op.apply a b) := by
  unfold guarded apply
  split
  · rfl
  · rename_i hzero
    have hreal (h : op.divides = true) : (b.toReal == 0.0) = false := by
      rw [Magnitude.toReal_beq_zero]
      simpa [h] using hzero
    cases a with
    | real x =>
      dsimp only
      rw [guardedOnReal_eq alarm _ hreal]
      rfl
    | whole m =>
      cases b with
      | real y =>
        dsimp only
        rw [guardedOnReal_eq alarm _ hreal]
        rfl
      | whole n =>
        have hwhole (h : op.divides = true) : n ≠ 0 := fun hn =>
          hzero (by simp [h, hn, Magnitude.isZero])
        dsimp only
        rw [guardedOnWhole_eq alarm m hwhole]
        rfl

end Arithmetic

namespace Elementary

variable (alarm : Alarm ε σ)

/-- The function with guarded steps. Only whole powers of two take one: other
    functions are those of doubles, or defined on all whole numbers. -/
def guarded (bits : Bool) (a : Magnitude) (f : Elementary) : EStateM ε σ (Option Magnitude) := do
  match f, a with
  | exp2, .whole n =>
    if n.toInt < 0 then return some (.real (Float.ofInt n.toInt).exp2)
    else return some (.ofInt (← Guarded.power alarm 2 n.toInt (2 ^ 64)))
  | f, a => return f.apply bits a

/-- No step of a function raises an alarm. -/
theorem guarded_eq (f : Elementary) (bits : Bool) (a : Magnitude) :
    f.guarded alarm bits a = pure (f.apply bits a) := by
  unfold guarded
  split
  · rename_i n
    change _ = pure (some (onWhole n bits exp2))
    rw [onWhole]
    split
    · rfl
    · rename_i hneg
      exact Guarded.power_bind alarm 2 hneg fun m => pure (some m)
  · rfl

end Elementary

end Reckoner
