import Mathlib.Tactic.Positivity
import Reckoner.Magnitude.Basic

/-!
# Whole numbers as doubles

The double nearest to a whole number is zero only if the number is
(`Magnitude.toReal_beq_zero`): a positive mantissa is rounded to a positive one,
and a number whose exponent is in the range of the format is not packed into the
bits of a zero. Doubles that are not finite are no zeros either, so that numbers
too large for the format need no treatment of their own (`Nonzero`).
-/

namespace Reckoner

open Float.Model Float.Model.UnpackedFloat

/-! ## Rounding -/

theorem mantissa_shiftRight (em : ExtendedMantissa) (k : Nat) :
    (em >>> k).mantissa = em.mantissa / 2 ^ k := by
  induction k with
  | zero => exact (Nat.div_one _).symm
  | succ k ih =>
    change (em >>> k).mantissa / 2 = _
    rw [ih, Nat.div_div_eq_div_mul, Nat.pow_succ]

theorem mantissa_le_roundedMantissa (em : ExtendedMantissa) :
    em.mantissa ≤ em.roundedMantissa := by
  obtain ⟨m, r, s⟩ := em
  cases r <;> cases s <;>
    simp [ExtendedMantissa.roundedMantissa, ExtendedMantissa.accuracy,
      Accuracy.roundToNearestEven]

/-- A mantissa that is at least the smallest double keeps a bit when it is
    shifted into the range of the format, and at most 53 of them. -/
theorem shift_bounds {m : Nat} {e : Int} (hm : 2 ^ (-1074 - e).toNat ≤ m) :
    let shifted := shiftToTargetExponent .binary64 m e .exact
    0 < shifted.1.mantissa ∧ shifted.1.mantissa < 2 ^ 53 ∧ -1074 ≤ shifted.2 := by
  have hpos : m ≠ 0 := (lt_of_lt_of_le (by positivity) hm).ne'
  have htarget : Format.binary64.targetExponent (totalExponent m e) =
      max (m.log2 + 1 + e - 53) (-1074) := rfl
  have hmantissa (k : Nat) : (ExtendedMantissa.mk m false false >>> k).mantissa = m / 2 ^ k :=
    mantissa_shiftRight _ k
  dsimp only [shiftToTargetExponent, shiftToExponent, ExtendedMantissa.ofMantissaAndAccuracy]
  rw [htarget, hmantissa]
  generalize hk : (max ((m.log2 : Int) + 1 + e - 53) (-1074) - e).toNat = k
  refine ⟨Nat.div_pos ?_ (by positivity), ?_, by omega⟩
  · -- The shift is by no more than the bits of the mantissa, or down to the
    -- least exponent.
    rcases le_total ((m.log2 : Int) + 1 + e - 53) (-1074) with h | h
    · rwa [show k = (-1074 - e).toNat by omega]
    · exact (Nat.pow_le_pow_right (by decide) (by omega)).trans (Nat.log2_self_le hpos)
  · rw [Nat.div_lt_iff_lt_mul (by positivity), ← Nat.pow_add]
    exact Nat.lt_log2_self.trans_le (Nat.pow_le_pow_right (by decide) (by omega))

/-! ## Numbers that are not zero -/

/-- The number is not zero, and if it is finite, it is in the range of the
    format. -/
def Nonzero : UnpackedFloat → Prop
  | .zero _ => False
  | .finite _ m e _ => m < 2 ^ 53 ∧ -1074 ≤ e
  | .infinity _ | .notANumber => True

theorem nonzero_roundWithAccuracy (s : Sign) {m : Nat} {e : Int}
    (hm : 2 ^ (-1074 - e).toNat ≤ m) : Nonzero (roundWithAccuracy .binary64 s m e .exact) := by
  obtain ⟨hpos, -, he⟩ := shift_bounds hm
  rw [roundWithAccuracy]
  generalize shiftToTargetExponent .binary64 m e .exact = first at hpos he ⊢
  obtain ⟨em, e'⟩ := first
  dsimp only at hpos he ⊢
  -- Rounding may carry into one more bit, which a second shift takes off.
  have hrounded : 2 ^ (-1074 - e').toNat ≤ em.roundedMantissa := by
    rw [show (-1074 - e').toNat = 0 by omega]
    exact hpos.trans_le (mantissa_le_roundedMantissa em)
  obtain ⟨hpos', hlt, he''⟩ := shift_bounds hrounded
  rw [dif_neg hpos'.ne']
  exact ⟨hlt, he''⟩

theorem nonzero_mul_finite (s s' : Sign) {m m' : Nat} {e e' : Int} (hpos : 0 < m)
    (hpos' : 0 < m') (hm : 2 ^ (-1074 - (e + e')).toNat ≤ m * m') :
    Nonzero (UnpackedFloat.mul .binary64 (.finite s m e hpos) (.finite s' m' e' hpos')) :=
  nonzero_roundWithAccuracy _ hm

theorem Nonzero.mul {x : UnpackedFloat} (hx : Nonzero x) (s : Sign) {m : Nat} {e : Int}
    (hpos : 0 < m) (he : (-e).toNat ≤ m.log2) :
    Nonzero (x.mul .binary64 (.finite s m e hpos)) := by
  cases x with
  | infinity _ => trivial
  | notANumber => trivial
  | zero _ => cases hx
  | finite s' m' e' hpos' =>
    refine nonzero_mul_finite _ _ _ _ ?_
    calc 2 ^ (-1074 - (e' + e)).toNat
        ≤ 2 ^ m.log2 := Nat.pow_le_pow_right (by decide) (by have := hx.2; omega)
      _ ≤ m := Nat.log2_self_le hpos.ne'
      _ ≤ m' * m := Nat.le_mul_of_pos_left _ hpos'

/-! ## Packing -/

/-- The bits are those of a zero only if exponent and mantissa are zero. -/
def HasBits (b : BitVec 64) : Prop :=
  @unpackExponent .binary64 b ≠ 0#11 ∨ @unpackMantissa .binary64 b ≠ 0#52

theorem hasBits_packComponents {s : Sign} {e : BitVec 11} {m : BitVec 52} (h : e ≠ 0 ∨ m ≠ 0) :
    HasBits (packComponents .binary64 s e m) := by
  rw [HasBits, unpackExponent_packComponents, unpackMantissa_packComponents]
  exact h

theorem Nonzero.hasBits_pack {x : UnpackedFloat} (hx : Nonzero x) :
    HasBits (UnpackedFloat.pack .binary64 x) := by
  cases x with
  | zero _ => cases hx
  | infinity _ => exact hasBits_packComponents (.inl (by decide))
  | notANumber => exact hasBits_packComponents (.inl (by decide))
  | finite s' m e hpos =>
    obtain ⟨hm, he⟩ := hx
    have hbias : ((Format.exponentBias .binary64 : Nat) : Int) = 1023 := rfl
    have hbits : Format.mantissaBits .binary64 = 53 := rfl
    unfold UnpackedFloat.pack
    dsimp only
    rw [hbias, hbits]
    split
    · exact hasBits_packComponents (.inl (by decide))
    · rename_i hlarge
      split
      · -- The leading bit is implicit, and the exponent is not the least one.
        refine hasBits_packComponents (.inl fun h => ?_)
        have := congrArg BitVec.toNat h
        rw [BitVec.toNat_ofNat, Nat.mod_eq_of_lt (by omega)] at this
        change _ = 0 at this
        omega
      · rename_i hlog
        -- All bits are explicit.
        refine hasBits_packComponents (.inr fun h => ?_)
        have hlt : m < 2 ^ 52 :=
          (Nat.log2_lt hpos.ne').1 (by have := (Nat.log2_lt hpos.ne').2 hm; omega)
        have := congrArg BitVec.toNat h
        rw [BitVec.toNat_ofNat, Nat.mod_eq_of_lt hlt] at this
        exact hpos.ne' this

theorem HasBits.nonzero_unpack {b : BitVec 64} (h : HasBits b) :
    Nonzero (UnpackedFloat.unpack .binary64 b) := by
  have hbias : ((Format.exponentBias .binary64 : Nat) : Int) = 1023 := rfl
  unfold UnpackedFloat.unpack
  dsimp only
  rw [hbias]
  by_cases hmost : @unpackExponent .binary64 b = -1#11
  · rw [if_pos hmost]
    split <;> trivial
  rw [if_neg hmost]
  by_cases hleast : @unpackExponent .binary64 b = 0#11
  · rw [if_pos hleast, dif_neg (h.resolve_left fun hne => hne hleast)]
    refine ⟨(@unpackMantissa .binary64 b).isLt.trans (by decide), ?_⟩
    rw [hleast]
    decide
  · have hpos : 0 < (@unpackExponent .binary64 b).toNat :=
      Nat.pos_of_ne_zero fun h => hleast (BitVec.eq_of_toNat_eq h)
    rw [if_neg hleast]
    exact ⟨(1#1 ++ @unpackMantissa .binary64 b).isLt, by omega⟩

theorem Nonzero.unpack_pack {x : UnpackedFloat} (hx : Nonzero x) :
    Nonzero (Float.Model.pack x).unpack :=
  hx.hasBits_pack.nonzero_unpack

/-! ## Whole numbers -/

theorem nonzero_ofNat {n : Nat} (hn : n ≠ 0) : Nonzero (UnpackedFloat.ofNat .binary64 n) := by
  have hpos : (0 : Int) < n := by omega
  have htarget : Format.binary64.targetExponent (totalExponent n 0) =
      max ((n.log2 : Int) + 1 + 0 - 53) (-1074) := rfl
  rw [UnpackedFloat.ofNat, UnpackedFloat.ofInt, UnpackedFloat.normalize,
    Int.compare_eq_gt.2 hpos]
  refine nonzero_roundWithAccuracy _ ?_
  simp only [Int.toNat_natCast, htarget]
  generalize hk : (0 - max ((n.log2 : Int) + 1 + 0 - 53) (-1074)).toNat = k
  rw [show (-1074 - (0 - (k : Int))).toNat = 0 by omega, Nat.shiftLeft_eq]
  exact Nat.mul_pos (by omega) (by positivity)

/-- A mantissa with as many places as the format has bits. -/
theorem nonzero_places {m : Nat} (hpos : 0 < m)
    (hone : 0 < 10 ^ (0 : Int).toNat) :
    Nonzero (UnpackedFloat.mul .binary64
      (.finite .positive m (-(Format.mantissaBits .binary64 : Nat)) hpos)
      (.finite .positive (10 ^ (0 : Int).toNat) 0 hone)) := by
  have hbits : Format.mantissaBits .binary64 = 53 := rfl
  generalize he : -((Format.mantissaBits .binary64 : Nat) : Int) = e
  refine nonzero_mul_finite _ _ _ _ ?_
  rw [show (-1074 - (e + 0)).toNat = 0 by omega]
  exact Nat.mul_pos hpos hone

theorem nonzero_ofScientific {n : Nat} (hn : n ≠ 0) :
    Nonzero (UnpackedFloat.ofScientific .binary64 n 0) := by
  have hleast : ¬(0 : Int) < -(2 ^ 11 + (n.log2 : Int)) := by omega
  rw [UnpackedFloat.ofScientific, dif_neg hn, if_neg (by decide), if_neg hleast, if_pos le_rfl]
  exact nonzero_places _ _

theorem nonzero_floatOfNat {n : Nat} (hn : n ≠ 0) : Nonzero (Float.ofNat n).toModel.unpack := by
  change Nonzero (Float.ofScientific n false 0).toModel.unpack
  rw [Float.ofScientific]
  split
  · rename_i hsmall
    have hnat : n.toUInt64.toNat = n := Nat.mod_eq_of_lt (by omega)
    have h : Nonzero n.toUInt64.toFloat.toModel.unpack := by
      refine Nonzero.unpack_pack ?_
      rw [UnpackedFloat.ofUInt64, hnat]
      exact nonzero_ofNat hn
    have hone : Float.exactlyRepresentablePowersOfTen[0] = Float.ofBits 4607182418800017408 := rfl
    rw [hone]
    have hunpack : (Float.ofBits 4607182418800017408).toModel.unpack =
        .finite .positive (2 ^ 52) (-52) (by decide) := rfl
    refine Nonzero.unpack_pack ?_
    rw [hunpack]
    exact h.mul .positive (by decide) (by decide)
  · exact (nonzero_ofScientific hn).unpack_pack

theorem Nonzero.beq_zero {x : Float} (hx : Nonzero x.toModel.unpack) : (x == 0.0) = false := by
  change (x.toModel.unpack.compare (.zero .positive) == some .eq) = false
  generalize x.toModel.unpack = u at hx
  cases u with
  | zero _ => cases hx
  | infinity s => cases s <;> rfl
  | notANumber => rfl
  | finite s _ _ _ => cases s <;> rfl

theorem ofInt_beq_zero {n : Int} (hn : n ≠ 0) : (Float.ofInt n == 0.0) = false := by
  cases n with
  | ofNat n => exact (nonzero_floatOfNat (by rintro rfl; exact hn rfl)).beq_zero
  | negSucc n =>
    refine Nonzero.beq_zero (Nonzero.unpack_pack ?_)
    have h := nonzero_floatOfNat n.succ_ne_zero
    generalize (Float.ofNat n.succ).toModel.unpack = u at h ⊢
    cases u <;> exact h

/-- The double nearest to a magnitude is zero only if the magnitude is. -/
theorem Magnitude.toReal_beq_zero (a : Magnitude) : (a.toReal == 0.0) = a.isZero := by
  cases a with
  | real x => rfl
  | whole n =>
    by_cases hn : n = 0
    · subst hn
      decide
    · have hint : n.toInt ≠ 0 := fun h => hn (Int64.toInt_inj.1 (h.trans Int64.toInt_zero.symm))
      rw [Magnitude.toReal, ofInt_beq_zero hint]
      exact (beq_false_of_ne hn).symm

end Reckoner
