import Mathlib.Algebra.Order.Ring.Rat
import Mathlib.Data.Rat.Cast.Lemmas
import Mathlib.Tactic.Positivity
import Mathlib.Tactic.Ring
import Reckoner.Decimal.Shortest
import Reckoner.Magnitude.Basic

/-!
# The number of a double

A finite double is a number, that of its sign, mantissa and exponent (`exactReal?`). The
binary fraction it is taken apart into, bit by bit, is the same number
(`Binary.exact_ofFloat`), and so is the fraction of numerator and denominator that is
written in digits (`Binary.exact_eq_div`).
-/

namespace Reckoner

open Float.Model Float.Model.UnpackedFloat

/-- The number that a double is, if it is finite. -/
def exactReal? (x : Float) : Option ℚ :=
  match x.toModel.unpack with
  | .zero _ => some 0
  | .finite s m e _ => some (s.apply m * 2 ^ e)
  | .infinity _ | .notANumber => none

/-- The number that a magnitude is, if it is finite. -/
def Magnitude.number? : Magnitude → Option ℚ
  | whole n => some n.toInt
  | real x => exactReal? x

namespace Binary

/-- The number that a fraction is. -/
def exact (b : Binary) : ℚ :=
  (if b.negative then -1 else 1) * b.mantissa * 2 ^ b.exponent

end Binary

variable {x : Float}

theorem exactReal?_of_unpack {s : Float.Model.UnpackedFloat.Sign} {m : Nat} {e : Int} {hm : 0 < m}
    (h : x.toModel.unpack = .finite s m e hm) :
    exactReal? x = some ((s.apply m : ℚ) * 2 ^ e) := by
  rw [exactReal?, h]

/-! ## The bits of a double -/

theorem toNat_unpackExponent (x : Float) :
    (@unpackExponent .binary64 x.toModel.toBits.toBitVec).toNat =
      x.toBits.toNat / 2 ^ 52 % 2 ^ 11 := by
  change (BitVec.cast _ _).toNat = _
  rw [BitVec.toNat_cast, BitVec.extractLsb_toNat, Nat.shiftRight_eq_div_pow]
  rfl

theorem toNat_unpackMantissa (x : Float) :
    (@unpackMantissa .binary64 x.toModel.toBits.toBitVec).toNat = x.toBits.toNat % 2 ^ 52 := by
  change (BitVec.cast _ _).toNat = _
  rw [BitVec.toNat_cast, BitVec.extractLsb_toNat]
  rfl

/-- The mantissa with the implicit bit. -/
theorem toNat_append_unpackMantissa (x : Float) :
    (1#1 ++ @unpackMantissa .binary64 x.toModel.toBits.toBitVec).toNat =
      x.toBits.toNat % 2 ^ 52 + 2 ^ 52 := by
  have hlt : x.toBits.toNat % 2 ^ 52 < 2 ^ 52 := Nat.mod_lt _ (by decide)
  rw [BitVec.toNat_append, toNat_unpackMantissa, ← Nat.shiftLeft_add_eq_or_of_lt hlt]
  change 2 ^ 52 + _ = _
  exact Nat.add_comm ..

theorem unpackSign_eq_one_iff (x : Float) :
    @unpackSign .binary64 x.toModel.toBits.toBitVec = 1#1 ↔ isNegative x = true := by
  have hbit : (@unpackSign .binary64 x.toModel.toBits.toBitVec).toNat =
      (x.toBits >>> 63).toNat := by
    have hlt : x.toModel.toBits.toBitVec.toNat < 2 ^ 64 := BitVec.isLt _
    change (BitVec.cast _ _).toNat = x.toBits.toNat >>> 63
    rw [BitVec.toNat_cast, BitVec.extractLsb_toNat, Nat.shiftRight_eq_div_pow,
      Nat.shiftRight_eq_div_pow]
    exact Nat.mod_eq_of_lt (by change _ / 2 ^ 63 < 2 ^ 1; omega)
  rw [isNegative, beq_iff_eq, ← UInt64.toNat_inj, ← hbit, ← BitVec.toNat_inj]
  rfl

theorem apply_unpackSign (x : Float) (n : Nat) :
    ((Sign.ofBitVec (@unpackSign .binary64 x.toModel.toBits.toBitVec)).apply n : ℚ) =
      (if isNegative x then -1 else 1) * n := by
  have hsign : ∀ v : BitVec 1, Sign.ofBitVec v = if v = 1#1 then .negative else .positive := by
    intro v
    rcases BitVec.eq_zero_or_eq_one v with rfl | rfl <;> rfl
  rw [hsign]
  by_cases h : isNegative x
  · rw [if_pos ((unpackSign_eq_one_iff x).2 h), if_pos h]
    simp [Sign.apply]
  · rw [if_neg (mt (unpackSign_eq_one_iff x).1 h), if_neg h]
    simp [Sign.apply]

theorem Binary.ofFloat_of_field_eq (h : x.toBits.toNat / 2 ^ 52 % 2 ^ 11 = 0) :
    ofFloat x = ⟨isNegative x, x.toBits.toNat % 2 ^ 52, -1074⟩ :=
  if_pos h

theorem Binary.ofFloat_of_field_ne (h : x.toBits.toNat / 2 ^ 52 % 2 ^ 11 ≠ 0) :
    ofFloat x = ⟨isNegative x, x.toBits.toNat % 2 ^ 52 + 2 ^ 52,
      (x.toBits.toNat / 2 ^ 52 % 2 ^ 11 : Nat) - 1075⟩ :=
  if_neg h

/-- The fraction that a finite double is taken apart into is the same number. -/
theorem Binary.exact_ofFloat {r : ℚ} (h : exactReal? x = some r) : (ofFloat x).exact = r := by
  have hbias : ((Format.exponentBias .binary64 : Nat) : Int) = 1023 := rfl
  rw [exactReal?, Float.Model.unpack] at h
  unfold UnpackedFloat.unpack at h
  dsimp only at h
  rw [hbias] at h
  by_cases hmost : @unpackExponent .binary64 x.toModel.toBits.toBitVec = -1#11
  · -- Neither an infinity nor what is not a number is a number.
    rw [if_pos hmost] at h
    by_cases hzero : @unpackMantissa .binary64 x.toModel.toBits.toBitVec = 0#52
    · rw [if_pos hzero] at h
      cases h
    · rw [if_neg hzero] at h
      cases h
  rw [if_neg hmost] at h
  by_cases hleast : @unpackExponent .binary64 x.toModel.toBits.toBitVec = 0#11
  · -- There is no implicit bit, and no number but zero without another one.
    have hfield : x.toBits.toNat / 2 ^ 52 % 2 ^ 11 = 0 := by
      rw [← toNat_unpackExponent, hleast]
      rfl
    rw [if_pos hleast] at h
    rw [ofFloat_of_field_eq hfield, exact]
    by_cases hzero : @unpackMantissa .binary64 x.toModel.toBits.toBitVec = 0#52
    · rw [dif_pos hzero] at h
      have hlow : x.toBits.toNat % 2 ^ 52 = 0 := by
        rw [← toNat_unpackMantissa, hzero]
        rfl
      obtain rfl := Option.some.inj h
      rw [hlow, Nat.cast_zero, mul_zero, zero_mul]
    · rw [dif_neg hzero, hleast] at h
      obtain rfl := Option.some.inj h
      rw [apply_unpackSign, toNat_unpackMantissa]
      rfl
  · have hfield : x.toBits.toNat / 2 ^ 52 % 2 ^ 11 ≠ 0 := by
      rw [← toNat_unpackExponent]
      exact fun h => hleast (BitVec.eq_of_toNat_eq h)
    rw [if_neg hleast] at h
    rw [ofFloat_of_field_ne hfield, exact]
    obtain rfl := Option.some.inj h
    rw [apply_unpackSign, toNat_unpackExponent, toNat_append_unpackMantissa]
    rfl

/-! ## Numerator and denominator -/

namespace Binary

theorem denominator_pos (b : Binary) : 0 < b.denominator :=
  Nat.pow_pos (by decide)

theorem exact_eq_div (b : Binary) :
    b.exact = (if b.negative then -1 else 1) * (b.numerator / b.denominator) := by
  -- One of the two powers is that of zero.
  have hscale : (2 : ℚ) ^ b.exponent = 2 ^ b.exponent.toNat / 2 ^ (-b.exponent).toNat := by
    rw [← zpow_natCast, ← zpow_natCast, ← zpow_sub₀ (by decide)]
    congr 1
    omega
  have hnum : (b.numerator : ℚ) = b.mantissa * 2 ^ b.exponent.toNat := by
    rw [numerator]
    exact (Nat.cast_mul _ _).trans (congrArg _ (Nat.cast_pow 2 _))
  have hden : (b.denominator : ℚ) = 2 ^ (-b.exponent).toNat := Nat.cast_pow 2 _
  rw [exact, hscale, hnum, hden]
  ring

variable {b : Binary} {n : Int}

theorem div_of_exact (h : b.exact = n) : (b.numerator : ℚ) / b.denominator = n.natAbs := by
  have hnonneg : (0 : ℚ) ≤ b.numerator / b.denominator := by positivity
  rw [Nat.cast_natAbs, Int.cast_abs, ← h, exact_eq_div]
  split
  · rw [neg_one_mul, abs_neg, abs_of_nonneg hnonneg]
  · rw [one_mul, abs_of_nonneg hnonneg]

/-- A fraction that is a whole number has a numerator that its denominator divides. -/
theorem numerator_of_exact (h : b.exact = n) : b.numerator = n.natAbs * b.denominator := by
  have hpos : (b.denominator : ℚ) ≠ 0 := Nat.cast_ne_zero.2 b.denominator_pos.ne'
  have hdiv := (div_eq_iff hpos).1 (div_of_exact h)
  exact_mod_cast hdiv

/-- A whole number other than zero has the sign of the fraction. -/
theorem negative_iff_of_exact (h : b.exact = n) (hn : n ≠ 0) : b.negative = true ↔ n < 0 := by
  have hexact := exact_eq_div b
  rw [h, div_of_exact h] at hexact
  have hpos : (0 : ℚ) < n.natAbs := Nat.cast_pos.2 (Int.natAbs_pos.2 hn)
  cases hnegative : b.negative with
  | true =>
    rw [hnegative, if_pos rfl, neg_one_mul] at hexact
    exact iff_of_true rfl (Int.cast_lt_zero.1 (hexact.trans_lt (neg_neg_of_pos hpos)))
  | false =>
    rw [hnegative, if_neg Bool.false_ne_true, one_mul] at hexact
    exact iff_of_false Bool.false_ne_true
      (not_lt_of_ge (Int.cast_nonneg_iff.1 (hpos.le.trans_eq hexact.symm)))

end Binary

/-- A whole number that is a double has 53 bits, and is scaled by 972 more at most. -/
theorem natAbs_lt_of_exact {n : Int} (h : exactReal? x = some (n : ℚ)) :
    n.natAbs < 2 ^ 53 * 2 ^ 972 := by
  have hnum := Binary.numerator_of_exact (Binary.exact_ofFloat h)
  have hle : n.natAbs ≤ (Binary.ofFloat x).numerator :=
    hnum ▸ Nat.le_mul_of_pos_right _ (Binary.denominator_pos _)
  have hmantissa : (Binary.ofFloat x).mantissa < 2 ^ 53 := by
    simp only [Binary.ofFloat]
    split <;> simp only [Nat.pow_eq] <;> omega
  have hexponent : (Binary.ofFloat x).exponent.toNat ≤ 972 := by
    simp only [Binary.ofFloat]
    split <;> simp only [Nat.pow_eq] <;> omega
  refine Nat.lt_of_le_of_lt hle ?_
  calc (Binary.ofFloat x).mantissa * 2 ^ (Binary.ofFloat x).exponent.toNat
      < 2 ^ 53 * 2 ^ (Binary.ofFloat x).exponent.toNat := by gcongr
    _ ≤ 2 ^ 53 * 2 ^ 972 := by gcongr; decide

/-! ## Words instead of digits -/

/-- A finite double is written in digits. -/
theorem specialText?_of_exact {r : ℚ} (h : exactReal? x = some r) : specialText? x = none := by
  have hnan : x.isNaN = x.toModel.unpack.isNaN := rfl
  have hinf : x.isInf = x.toModel.unpack.isInf := rfl
  rw [exactReal?] at h
  rw [specialText?, hnan, hinf]
  generalize x.toModel.unpack = u at h ⊢
  cases u with
  | zero _ => rfl
  | finite _ _ _ _ => rfl
  | infinity _ => cases h
  | notANumber => cases h

end Reckoner
