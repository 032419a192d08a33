import Reckoner.Proofs.Conversion.Chain
import Reckoner.Proofs.Phrase.Running

/-!
# Division of whole numbers

The remainder of two whole numbers is a whole number, smaller than the divisor and of the
sign of the dividend. Their quotient is one exactly if the divisor goes into the dividend,
and a real number otherwise. The two fit together (`Quantity.whole_division`): what the
remainder leaves of the dividend is a multiple of the divisor, so that its quotient is
whole, and from the quotient the divisor and the remainder make the dividend again.

This is so although the quotient is the place of the exact one in the register, and not
that itself where the least number there is divided by `-1`: multiplying takes back what
wrapping did.
-/

namespace Reckoner

open Eval

/-! ## What an operator leaves -/

namespace BinaryOperator

def remainder : BinaryOperator :=
  ⟨⟨"%", "mod", .arithmetic .mod, "remainder"⟩, .mod, by decide, rfl⟩

variable {settings : Settings} {o : BinaryOperator} {left right q : Quantity} {a b n : Int64}

/-- The operation on whole numbers, whatever their units and formats. -/
theorem combine_of_whole (ha : left.magnitude = .whole a) (hb : right.magnitude = .whole b)
    (hzero : o.arithmetic.divides = true → b ≠ 0) :
    ∃ q, o.arithmetic.combine left right = some q ∧
      q.magnitude = o.arithmetic.onWhole a b ∧ q.IsSettled := by
  have happly : o.arithmetic.apply left.magnitude right.magnitude =
      some (o.arithmetic.onWhole a b) := by
    rw [Arithmetic.apply.eq_def, ha, hb, if_neg]
    simpa [Magnitude.isZero] using hzero
  let q : Quantity :=
    { magnitude := o.arithmetic.onWhole a b
      measure := o.arithmetic.measure left.measure right.measure
      format := Quantity.firstFormat left.format right.format }
  have hcombine : o.arithmetic.combine left right = some q := by
    rw [Arithmetic.combine, happly]
    rfl
  exact ⟨q, hcombine, rfl, rfl⟩

variable [DigitLimit]

/-- On top of any stack, the operator takes the two operands off and leaves the value. -/
def Leaves (settings : Settings) (o : BinaryOperator) (left right q : Quantity) : Prop :=
  ∀ (formula : Formula) (m : Machine) (below : List Quantity),
    Eval.apply settings formula o.operator { m with stack := right :: left :: below } =
      .ok ⟨⟩ { m with stack := q :: below }

/-- The value that the operator leaves is a whole number, and an operand for the next one. -/
structure LeavesWhole (settings : Settings) (o : BinaryOperator) (left right : Quantity)
    (n : Int64) (q : Quantity) : Prop where
  leaves : o.Leaves settings left right q
  magnitude : q.magnitude = .whole n
  isSettled : q.IsSettled

theorem leaves_of_combine (hleft : left.IsSettled) (hright : right.IsSettled)
    (hcombine : o.arithmetic.combine left right = some q)
    (htext : ∃ text, q.text settings = .ok text) : o.Leaves settings left right q :=
  fun _ m below => o.apply_of_combine m below hleft hright hcombine htext

/-- A whole result has a text in every setting. -/
theorem exists_leavesWhole (settings : Settings) (hleft : left.IsSettled) (hright : right.IsSettled)
    (ha : left.magnitude = .whole a) (hb : right.magnitude = .whole b)
    (hzero : o.arithmetic.divides = true → b ≠ 0)
    (hvalue : o.arithmetic.onWhole a b = .whole n) :
    ∃ q, o.LeavesWhole settings left right n q := by
  obtain ⟨q, hcombine, hmagnitude, hsettled⟩ := combine_of_whole (o := o) ha hb hzero
  have hwhole : q.magnitude = .whole n := hmagnitude.trans hvalue
  have htext : ∃ text, q.text settings = .ok text := by
    rw [Quantity.text, hwhole]
    exact ⟨_, rfl⟩
  exact ⟨q, leaves_of_combine hleft hright hcombine htext, hwhole, hsettled⟩

end BinaryOperator

/-! ## The register -/

section

variable {a b : Int64}

theorem toInt_ne_zero (h : b ≠ 0) : b.toInt ≠ 0 := fun hb =>
  h (Int64.toInt_inj.1 (hb.trans Int64.toInt_zero.symm))

theorem natAbs_tmod_lt (h : b ≠ 0) : (a.toInt.tmod b.toInt).natAbs < b.toInt.natAbs := by
  rw [Int.natAbs_tmod]
  exact Nat.mod_lt _ (Int.natAbs_pos.2 (toInt_ne_zero h))

theorem tmod_eq_zero_or_sign (m n : Int) : m.tmod n = 0 ∨ (m.tmod n).sign = m.sign := by
  have hsign := Int.sign_tmod m n
  split at hsign
  · exact .inl (Int.sign_eq_zero_iff_zero.1 hsign)
  · exact .inr hsign

/-- A remainder has a place of its own. -/
theorem toInt_ofInt_tmod (h : b ≠ 0) :
    (Int64.ofInt (a.toInt.tmod b.toInt)).toInt = a.toInt.tmod b.toInt := by
  have hlt : (a.toInt.tmod b.toInt).natAbs < b.toInt.natAbs := natAbs_tmod_lt h
  have hle := b.le_toInt
  have hlt' := b.toInt_lt
  exact Int64.toInt_ofInt_of_le (by omega) (by omega)

/-- What a remainder leaves of the dividend has a place of its own, as it lies between the
    dividend and zero, and is a multiple of the divisor. -/
theorem toInt_sub_tmod (a b : Int64) :
    (a - Int64.ofInt (a.toInt.tmod b.toInt)).toInt = a.toInt.tdiv b.toInt * b.toInt := by
  have hsize : (a.toInt.tmod b.toInt).natAbs ≤ a.toInt.natAbs := by
    rw [Int.natAbs_tmod]
    exact Nat.mod_le _ _
  have hsign : 0 ≤ a.toInt → 0 ≤ a.toInt.tmod b.toInt := Int.tmod_nonneg b.toInt
  have hsign' : 0 ≤ -a.toInt → 0 ≤ -a.toInt.tmod b.toInt := by
    rw [← Int.neg_tmod]
    exact Int.tmod_nonneg b.toInt
  have hle := a.le_toInt
  have hlt := a.toInt_lt
  have hplace : (Int64.ofInt (a.toInt - a.toInt.tmod b.toInt)).toInt =
      a.toInt - a.toInt.tmod b.toInt :=
    Int64.toInt_ofInt_of_le (by omega) (by omega)
  rw [Int64.ofInt_sub, Int64.ofInt_toInt] at hplace
  rw [hplace, ← Int.mul_tdiv_self, Int.mul_comm]

/-- The quotient of a multiple is whole. -/
theorem Arithmetic.quotient_of_eq_mul {k : Int} (h : b ≠ 0) (hk : a.toInt = k * b.toInt) :
    quotient a b = .ofInt k := by
  rw [quotient, hk, Int.mul_emod_left, if_pos rfl, Int.mul_ediv_cancel _ (toInt_ne_zero h)]

theorem Arithmetic.quotient_of_not_dvd (h : ¬b.toInt ∣ a.toInt) :
    quotient a b = .real (Float.ofInt a.toInt / Float.ofInt b.toInt) :=
  if_neg fun hmod => h (Int.dvd_of_emod_eq_zero hmod)

end

/-! ## Quotients and remainders -/

section

variable [DigitLimit]

/-- For two whole numbers of any units, the second not zero: the remainder is a whole number,
    smaller than the divisor and zero or of the sign of the dividend, and the divisor goes
    into what it leaves of the dividend; dividing that, multiplying with the divisor again and
    adding the remainder, only whole numbers are left, the last of them the dividend. The
    quotient of a multiple of the divisor is the place of the factor in the register; any other
    one is real. -/
theorem Quantity.whole_division (settings : Settings) {left right : Quantity} {a b : Int64}
    (hleft : left.IsSettled) (hright : right.IsSettled) (ha : left.magnitude = .whole a)
    (hb : right.magnitude = .whole b) (hzero : b ≠ 0) :
    (∃ r rest, BinaryOperator.remainder.LeavesWhole settings left right r rest ∧
      r.toInt.natAbs < b.toInt.natAbs ∧ (r.toInt = 0 ∨ r.toInt.sign = a.toInt.sign) ∧
      b.toInt ∣ a.toInt - r.toInt ∧
      ∃ d difference k quotient p product sum,
        Sign.minus.operator.LeavesWhole settings left rest d difference ∧
        Sign.slash.operator.LeavesWhole settings difference right k quotient ∧
        Sign.times.operator.LeavesWhole settings quotient right p product ∧
        Sign.plus.operator.LeavesWhole settings product rest a sum) ∧
    (∀ k : Int, a.toInt = k * b.toInt →
      ∃ q, Sign.slash.operator.LeavesWhole settings left right (.ofInt k) q) ∧
    (¬b.toInt ∣ a.toInt → ∃ q x, q.magnitude = .real x ∧
      (settings.ShowsReals → Sign.slash.operator.Leaves settings left right q)) := by
  refine ⟨?_, fun k hk => ?_, fun hdvd => ?_⟩
  · -- The remainder, what it leaves, the quotient of that, and back to the dividend.
    let r := Int64.ofInt (a.toInt.tmod b.toInt)
    let k := a.toInt.tdiv b.toInt
    have hr : r.toInt = a.toInt.tmod b.toInt := toInt_ofInt_tmod hzero
    have hmultiple : (a - r).toInt = k * b.toInt := toInt_sub_tmod a b
    have hback : Int64.ofInt k * b = a - r := by
      rw [← Int64.ofInt_toInt b, ← Int64.ofInt_mul, ← hmultiple, Int64.ofInt_toInt]
    obtain ⟨rest, hrest⟩ := BinaryOperator.exists_leavesWhole settings
      (o := .remainder) (n := r) hleft hright ha hb (fun _ => hzero) rfl
    obtain ⟨difference, hdifference⟩ := BinaryOperator.exists_leavesWhole settings
      (o := Sign.minus.operator) (n := a - r) hleft hrest.isSettled ha hrest.magnitude nofun rfl
    obtain ⟨quotient, hquotient⟩ := BinaryOperator.exists_leavesWhole settings
      (o := Sign.slash.operator) (n := .ofInt k) hdifference.isSettled hright
      hdifference.magnitude hb (fun _ => hzero) (Arithmetic.quotient_of_eq_mul hzero hmultiple)
    obtain ⟨product, hproduct⟩ := BinaryOperator.exists_leavesWhole settings
      (o := Sign.times.operator) (n := a - r) hquotient.isSettled hright
      hquotient.magnitude hb nofun (congrArg Magnitude.whole hback)
    obtain ⟨sum, hsum⟩ := BinaryOperator.exists_leavesWhole settings
      (o := Sign.plus.operator) (n := a) hproduct.isSettled hrest.isSettled
      hproduct.magnitude hrest.magnitude nofun (congrArg Magnitude.whole (Int64.sub_add_cancel a r))
    refine ⟨r, rest, hrest, ?_, ?_, ?_, _, difference, _, quotient, _, product, sum,
      hdifference, hquotient, hproduct, hsum⟩
    · rw [hr]
      exact natAbs_tmod_lt hzero
    · rw [hr]
      exact tmod_eq_zero_or_sign a.toInt b.toInt
    · rw [hr]
      exact Int.dvd_self_sub_tmod
  · exact BinaryOperator.exists_leavesWhole settings hleft hright ha hb (fun _ => hzero)
      (Arithmetic.quotient_of_eq_mul hzero hk)
  · obtain ⟨q, hcombine, hmagnitude, -⟩ :=
      BinaryOperator.combine_of_whole (o := Sign.slash.operator) ha hb fun _ => hzero
    exact ⟨q, _, hmagnitude.trans (Arithmetic.quotient_of_not_dvd hdvd), fun hshows =>
      BinaryOperator.leaves_of_combine hleft hright hcombine (q.text_eq_ok hshows)⟩

end

/-- The quotient of the least number in the register by `-1` has no place of its own, and
    is that number again. -/
theorem Quantity.least_by_minus_one :
    let least : Quantity := { magnitude := .whole (-9223372036854775808) }
    let minusOne : Quantity := { magnitude := .whole (-1) }
    ∃ rest quotient, BinaryOperator.remainder.LeavesWhole .default least minusOne 0 rest ∧
      Sign.slash.operator.LeavesWhole .default least minusOne (-9223372036854775808) quotient := by
  intro least minusOne
  have hleast : least.IsSettled := rfl
  have hminusOne : minusOne.IsSettled := rfl
  obtain ⟨⟨r, rest, hrest, hsize, -⟩, hmultiple, -⟩ :=
    whole_division .default hleast hminusOne rfl rfl (by decide)
  have hone : (-1 : Int64).toInt.natAbs = 1 := rfl
  have hr : r = 0 := Int64.toInt_inj.1 (Int.natAbs_eq_zero.1 (by omega))
  obtain ⟨quotient, hquotient⟩ := hmultiple 9223372036854775808 rfl
  exact ⟨rest, quotient, hr ▸ hrest, hquotient⟩

end Reckoner
