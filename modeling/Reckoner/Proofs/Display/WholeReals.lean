import Mathlib.Tactic.NormNum
import Reckoner.Proofs.Display.Tidy
import Reckoner.Proofs.Magnitude.Exact
import Reckoner.Proofs.Reading.ShownAgain

/-!
# Whole numbers among the doubles

A double that is a whole number is shown like one: with nine places, which are zeros and are
taken off again with the point (`Display.real_whole`). What is read from that is a whole
number in the register. It is the same number, and shown in the same way, exactly if it is in
the range of the register (`Quantity.wholeReal_readsBack`); greater ones wrap around.
-/

namespace Reckoner

open Text

/-! ## Writing whole numbers with places -/

namespace Decimal

theorem digitsOf_mul_pow {n : Nat} (hn : 0 < n) (k : Nat) :
    digitsOf (n * 10 ^ k) = digitsOf n ++ List.replicate k '0' := by
  induction k with
  | zero => rw [Nat.pow_zero, Nat.mul_one, List.replicate_zero, List.append_nil]
  | succ k ih =>
    have hpos : 0 < n * 10 ^ k := Nat.mul_pos hn (Nat.pow_pos (by decide))
    rw [Nat.pow_succ, ← Nat.mul_assoc, digitsOf, Nat.toDigits_of_base_le (by decide) (by omega),
      Nat.mul_div_cancel _ (by decide), Nat.mul_mod_left, ← digitsOf, ih, List.append_assoc,
      List.replicate_succ']
    rfl

theorem roundDiv_mul (k : Nat) {den : Nat} (hden : 0 < den) : roundDiv (k * den) den = k := by
  rw [roundDiv, Nat.mul_div_cancel _ hden, Nat.mul_mod_left, Nat.mul_zero, if_pos hden]

/-- A whole number is not rounded. -/
theorem roundShifted_mul (n : Nat) {den : Nat} (hden : 0 < den) (places : Nat) :
    roundShifted (n * den) den places = n * 10 ^ places := by
  have hnum : n * den * Nat.pow 10 (places : Int).toNat = n * 10 ^ places * den := by
    rw [Int.toNat_natCast]
    exact Nat.mul_right_comm ..
  have hden' : den * Nat.pow 10 (-(places : Int)).toNat = den := by
    rw [Int.toNat_neg_natCast]
    exact Nat.mul_one _
  rw [roundShifted, hnum, hden', roundDiv_mul _ hden]

/-- A whole number is written with zeros behind the point. -/
theorem fixed_mul (n : Nat) {den places : Nat} (hden : 0 < den) (hplaces : 0 < places) :
    fixed false (n * den) den places = digitsOf n ++ '.' :: List.replicate places '0' := by
  have hpadded : List.replicate (places + 1 - (digitsOf (n * 10 ^ places)).length) '0' ++
      digitsOf (n * 10 ^ places) = digitsOf n ++ List.replicate places '0' := by
    rcases Nat.eq_zero_or_pos n with rfl | hn
    · -- A zero has one digit, and is padded with as many as there are places.
      rw [Nat.zero_mul]
      exact List.replicate_succ'.symm.trans List.replicate_succ
    · have hdigits : 0 < (digitsOf n).length := List.length_pos_of_ne_nil Nat.toDigits_ne_nil
      have hnone : places + 1 - (digitsOf (n * 10 ^ places)).length = 0 := by
        rw [digitsOf_mul_pow hn, List.length_append, List.length_replicate]
        omega
      rw [hnone, digitsOf_mul_pow hn]
      rfl
  have hlength : (digitsOf n ++ List.replicate places '0').length - places =
      (digitsOf n).length := by
    rw [List.length_append, List.length_replicate, Nat.add_sub_cancel]
  rw [fixed, roundShifted_mul n hden, hpadded, hlength, List.take_left, List.drop_left, pointed,
    if_neg (by simp [hplaces.ne'])]

end Decimal
/-! ## The default format -/

/-- Of a whole number with zeros for places, the whole number is left. -/
theorem Numeral.tidied_zeros {n : Int} {negative : Bool} (hsign : n ≠ 0 → (negative = true ↔ n < 0))
    (places : Nat) :
    (⟨negative, Nat.toDigits 10 n.natAbs, some (List.replicate places '0')⟩ : Numeral).tidied =
      ofInt n := by
  have hstrip : stripZeros (List.replicate places '0') = [] :=
    List.rdropWhile_eq_nil_iff.2 fun c hc => by rw [List.eq_of_mem_replicate hc]; rfl
  have hnegative : (negative && Nat.toDigits 10 n.natAbs != ['0']) = decide (n < 0) := by
    by_cases hn : n = 0
    · subst hn
      exact Bool.and_false _
    · -- Its digits have a value, so that the sign is kept.
      have hzero : Nat.toDigits 10 n.natAbs ≠ ['0'] := fun h => by
        have hvalue := valueIn_toDigits n.natAbs
        rw [h] at hvalue
        exact hn (Int.natAbs_eq_zero.1 hvalue.symm)
      rw [bne_iff_ne.2 hzero, Bool.and_true, Bool.eq_iff_iff, decide_eq_true_iff]
      exact hsign hn
  rw [tidied]
  dsimp only
  rw [if_pos hstrip, hnegative, ofInt]

namespace Format

/-- The directive of the default format for real numbers. -/
def Directive.ninePlaces : Directive :=
  ⟨false, false, false, false, false, .absent, .count 9, 'f', 3⟩

/-- A double that is a whole number is shown with zeros for places. -/
theorem show?_ninePlaces {x : Float} {n : Int} (h : exactReal? x = some (n : ℚ)) :
    show? "%.9f" (.real x) = .ok (String.ofList
      (⟨(Binary.ofFloat x).negative, Nat.toDigits 10 n.natAbs,
        some (List.replicate 9 '0')⟩ : Numeral).text) := by
  have hpieces : pieces "%.9f".toList = [].map .char ++ [.directive .ninePlaces] := by decide
  have hnum := Binary.numerator_of_exact (Binary.exact_ofFloat h)
  have hfixed : Decimal.fixed false (Binary.ofFloat x).numerator (Binary.ofFloat x).denominator 9 =
      Nat.toDigits 10 n.natAbs ++ '.' :: List.replicate 9 '0' := by
    rw [hnum, Decimal.fixed_mul _ (Binary.denominator_pos _) (by decide), Decimal.digitsOf]
  have hfield : Directive.ninePlaces.field (.real x) =
      .ok ⟨if (Binary.ofFloat x).negative then ['-'] else [], [],
        Nat.toDigits 10 n.natAbs ++ '.' :: List.replicate 9 '0', true⟩ :=
    hfixed ▸ rfl
  rw [show?_of_pieces _ hpieces nofun nofun, hfield]
  change Except.ok (String.ofList ([] ++ Field.padded _ _)) = _
  rw [Field.padded_of_absent _ rfl, Numeral.text_eq Nat.toDigits_ne_nil]
  dsimp only
  rw [List.nil_append, List.append_nil]
  rfl

end Format

/-- A double that is a whole number is shown like one. -/
theorem Display.real_whole {x : Float} {n : Int} (h : exactReal? x = some (n : ℚ)) :
    Display.real "" "%.9f" x = .ok (String.ofList (Numeral.ofInt n).text) := by
  let printed : PrintedNumeral :=
    { mantissa :=
        ⟨(Binary.ofFloat x).negative, Nat.toDigits 10 n.natAbs, some (List.replicate 9 '0')⟩
      exponent := none
      whole_ne_nil := Nat.toDigits_ne_nil
      isDigit_whole := Decimal.isDigit_digitsOf _
      isDigit_places := Decimal.isDigit_replicate_zero }
  have htidied : printed.tidied.text = (Numeral.ofInt n).text := by
    have hmantissa : printed.tidied.mantissa = Numeral.ofInt n :=
      Numeral.tidied_zeros (Binary.negative_iff_of_exact (Binary.exact_ofFloat h)) 9
    rw [PrintedNumeral.text, hmantissa]
    exact List.append_nil _
  have hshown : Format.show? "%.9f" (.real x) = .ok (String.ofList printed.text) := by
    rw [PrintedNumeral.text]
    exact (Format.show?_ninePlaces h).trans
      (congrArg (fun text => Except.ok (String.ofList text)) (List.append_nil _).symm)
  have hsmall : ∀ e ∈ printed.exponent, e.capital = false := fun e he =>
    absurd he (Option.not_mem_none e)
  rw [real_of_shown (specialText?_of_exact h) hshown, ← htidied,
    ← PrintedNumeral.tidy_small rfl hsmall]

namespace Quantity

theorem text_of_wholeReal {q : Quantity} {x : Float} {n : Int} (hmagnitude : q.magnitude = .real x)
    (hformat : q.format = "") (hvalue : exactReal? x = some (n : ℚ)) :
    q.text .default =
      .ok (String.ofList ((Numeral.ofInt n).text ++ q.measure.display.toList)) := by
  have hdefault : Settings.default.realFormat = "%.9f" := rfl
  rw [text, hmagnitude, hformat, hdefault]
  dsimp only
  rw [Display.real_whole hvalue, String.ofList_append, String.ofList_toList]
  rfl

section

variable [DigitLimit]

/-- No whole number that is a double has too many digits. -/
theorem fits_ofInt_exact {x : Float} {n : Int} (h : exactReal? x = some (n : ℚ)) :
    (Numeral.ofInt n).Fits := by
  have hbound : 2 ^ 53 * 2 ^ 972 < 10 ^ 309 := by decide +kernel
  exact Numeral.fits_ofInt (Nat.lt_trans (natAbs_lt_of_exact h) hbound) (by decide) (by decide)

/-- A whole number without a unit is read to its end. -/
theorem readLiteral_plain {n : Int} (hfits : (Numeral.ofInt n).Fits) :
    readLiteral (Numeral.ofInt n).text = .ok (ofNumeral (Numeral.ofInt n)) [] := by
  have hnone : ∀ c ∈ ([] : List Char).head?, c.isDigit = false ∧ c ≠ '.' ∧ c ≠ 'x' ∧ c ≠ 'X' :=
    nofun
  have hread := readLiteral_numeral (n := Numeral.ofInt n) Nat.toDigits_ne_nil
    (Numeral.isDigit_whole_ofInt n) (List.forall_mem_nil _) hnone
  rw [List.append_nil, takeNumeral_bind hfits] at hread
  exact hread.trans (readSuffixes_atBlank _ (.inl rfl))

/-- A double that is a whole number, without a unit, is read back as a whole number in the
    register. It is the same number, with the same text, if it is in the range of the register,
    and only then. -/
theorem wholeReal_readsBack {q : Quantity} {x : Float} {n : Int}
    (hmagnitude : q.magnitude = .real x) (hmeasure : q.measure = .plain) (hformat : q.format = "")
    (hvalue : exactReal? x = some (n : ℚ)) :
    ∃ text q', q.text .default = .ok text ∧ readLiteral text.toList = .ok q' [] ∧
      q'.magnitude = .ofInt n ∧ q'.measure = .plain ∧
        (q'.magnitude.number? = some (n : ℚ) ∧ q'.text .default = .ok text ↔
          -2 ^ 63 ≤ n ∧ n < 2 ^ 63) := by
  have htext : q.text .default = .ok (String.ofList (Numeral.ofInt n).text) := by
    rw [text_of_wholeReal hmagnitude hformat hvalue, hmeasure]
    exact congrArg (fun text => Except.ok (String.ofList text)) (List.append_nil _)
  have hwhole : (ofNumeral (Numeral.ofInt n)).magnitude = .whole (Int64.ofInt n) :=
    Numeral.magnitude_ofInt n
  have hagain := text_of_whole (q := ofNumeral (Numeral.ofInt n)) hwhole rfl
  refine ⟨_, ofNumeral (Numeral.ofInt n), htext, ?_, hwhole, rfl, ?_⟩
  · rw [String.toList_ofList]
    exact readLiteral_plain (fits_ofInt_exact hvalue)
  · rw [hwhole]
    constructor
    · -- The same number is in the register, and so in its range.
      rintro ⟨hexact, -⟩
      have hregister : (Int64.ofInt n).toInt = n := Int.cast_injective (Option.some.inj hexact)
      rw [← hregister]
      exact ⟨Int64.le_toInt _, Int64.toInt_lt _⟩
    · rintro ⟨hle, hlt⟩
      have hregister : (Int64.ofInt n).toInt = n := Int64.toInt_ofInt_of_le hle hlt
      rw [Magnitude.number?, hagain, hregister]
      exact ⟨rfl, congrArg (fun text => Except.ok (String.ofList text)) (List.append_nil _)⟩

end

/-- Six, as a double. -/
theorem six_reads_back :
    exactReal? (Float.ofBits 0x4018000000000000) = some ((6 : Int) : ℚ) ∧
      ∃ text q', Quantity.text .default
          { magnitude := .real (Float.ofBits 0x4018000000000000) } = .ok text ∧
        readLiteral text.toList = .ok q' [] ∧
        q'.magnitude.number? = some ((6 : Int) : ℚ) ∧ q'.text .default = .ok text := by
  have hunpack : (Float.ofBits 0x4018000000000000).toModel.unpack =
      .finite .positive (3 * 2 ^ 51) (-50) (by decide) := rfl
  have hvalue : exactReal? (Float.ofBits 0x4018000000000000) = some ((6 : Int) : ℚ) := by
    rw [exactReal?_of_unpack hunpack]
    norm_num [Float.Model.UnpackedFloat.Sign.apply]
  obtain ⟨text, q', htext, hread, -, -, hiff⟩ :=
    wholeReal_readsBack (q := { magnitude := .real (Float.ofBits 0x4018000000000000) }) rfl rfl rfl
      hvalue
  have hagain := hiff.2 (by decide)
  exact ⟨hvalue, text, q', htext, hread, hagain⟩

/-- The first whole number beyond the register is shown in full, and read as the least one in
    it. -/
theorem two_pow_63_wraps :
    ∃ q q' : Quantity, q.magnitude.number? = some ((2 ^ 63 : Int) : ℚ) ∧
      q.text .default = .ok "9223372036854775808" ∧
      readLiteral "9223372036854775808".toList = .ok q' [] ∧
      q'.magnitude.number? = some ((-2 ^ 63 : Int) : ℚ) ∧
      q'.text .default = .ok "-9223372036854775808" := by
  have hunpack : (Float.ofBits 0x43E0000000000000).toModel.unpack =
      .finite .positive (2 ^ 52) 11 (by decide) := rfl
  have hvalue : exactReal? (Float.ofBits 0x43E0000000000000) = some ((2 ^ 63 : Int) : ℚ) := by
    rw [exactReal?_of_unpack hunpack]
    norm_num [Float.Model.UnpackedFloat.Sign.apply]
  have hread := readLiteral_plain (fits_ofInt_exact hvalue)
  have hwhole : (ofNumeral (Numeral.ofInt (2 ^ 63))).magnitude = .whole (Int64.ofInt (2 ^ 63)) :=
    Numeral.magnitude_ofInt _
  refine ⟨{ magnitude := .real (Float.ofBits 0x43E0000000000000) },
    ofNumeral (Numeral.ofInt (2 ^ 63)), hvalue, ?_, hread, ?_, ?_⟩
  · rw [text_of_wholeReal rfl rfl hvalue]
    rfl
  · rw [hwhole]
    rfl
  · rw [text_of_whole hwhole rfl]
    rfl

end Quantity

end Reckoner
