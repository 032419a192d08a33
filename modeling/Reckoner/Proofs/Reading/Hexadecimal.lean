import Mathlib.Data.List.TakeWhile
import Reckoner.Proofs.Guarded.Arithmetic
import Reckoner.Proofs.Reading.ShownAgain

/-!
# Hexadecimal numerals

A hexadecimal numeral is digits behind a mark, both of either case (`HexNumeral`). It is read
to its end, as the place that its value has in the register, and is shown in hexadecimal
again.

A number shown in this format is written with the capital digits of what the register
holds: that of a negative number is greater by the size of the register. Reading wraps it
back, so that showing and reading are inverse to each other on all numbers in the register
(`Quantity.hex_readsBack`).
-/

namespace Reckoner

open Text

/-! ## Digits in other bases -/

theorem exists_of_mem_toDigits {base : Nat} (hbase : 1 < base) (n : Nat) :
    ∀ c ∈ Nat.toDigits base n, ∃ d < base, c = d.digitChar := by
  induction n using Nat.strongRecOn with
  | ind n ih =>
    intro c hc
    rw [Nat.toDigits_eq_if hbase] at hc
    split at hc
    · rename_i hlt
      exact ⟨n, hlt, List.mem_singleton.1 hc⟩
    · rename_i hge
      rcases List.mem_append.1 hc with hc | hc
      · exact ih (n / base) (Nat.div_lt_self (by omega) hbase) c hc
      · exact ⟨n % base, Nat.mod_lt _ (by omega), List.mem_singleton.1 hc⟩

/-! ### Capital digits -/

theorem isHexDigit_digitChar : ∀ d < 16, isHexDigit d.digitChar.toUpper = true := by
  decide

theorem digitValue_digitChar : ∀ d < 16, digitValue d.digitChar.toUpper = d := by
  decide

/-- The capital digits of a natural number. -/
def capitalDigits (n : Nat) : List Char :=
  (Nat.toDigits 16 n).map Char.toUpper

theorem capitalDigits_eq (n : Nat) :
    capitalDigits n =
      if n < 16 then [n.digitChar.toUpper]
      else capitalDigits (n / 16) ++ [(n % 16).digitChar.toUpper] := by
  rw [capitalDigits, Nat.toDigits_eq_if (by decide)]
  split
  · rfl
  · rw [List.map_append]
    rfl

theorem capitalDigits_ne_nil (n : Nat) : capitalDigits n ≠ [] := fun h =>
  Nat.toDigits_ne_nil (List.map_eq_nil_iff.1 h)

theorem isHexDigit_capitalDigits (n : Nat) : ∀ c ∈ capitalDigits n, isHexDigit c = true := by
  intro c hc
  obtain ⟨c', hc', rfl⟩ := List.mem_map.1 hc
  obtain ⟨d, hd, rfl⟩ := exists_of_mem_toDigits (by decide) n c' hc'
  exact isHexDigit_digitChar d hd

theorem valueIn_capitalDigits (n : Nat) : valueIn 16 (capitalDigits n) = n := by
  induction n using Nat.strongRecOn with
  | ind n ih =>
    rw [capitalDigits_eq]
    split
    · rename_i hlt
      calc valueIn 16 [n.digitChar.toUpper]
          = 16 * 0 + digitValue n.digitChar.toUpper := valueIn_concat 16 [] _
        _ = n := by rw [digitValue_digitChar n hlt, Nat.mul_zero, Nat.zero_add]
    · rename_i hlt
      rw [valueIn_concat, ih (n / 16) (by omega),
        digitValue_digitChar _ (Nat.mod_lt _ (by decide)), Nat.div_add_mod]

/-! ## Numerals -/

/-- A hexadecimal numeral. -/
structure HexNumeral where
  /-- The mark is `0X`, not `0x`. -/
  capital : Bool
  digits : List Char
  digits_ne_nil : digits ≠ []
  isHexDigit_digits : ∀ c ∈ digits, isHexDigit c = true

namespace HexNumeral

def text (h : HexNumeral) : List Char :=
  '0' :: (if h.capital then 'X' else 'x') :: h.digits

/-- The number that the digits stand for, of any size. -/
def value (h : HexNumeral) : Nat :=
  valueIn 16 h.digits

/-- The numeral of a natural number. -/
def ofNat (n : Nat) : HexNumeral :=
  ⟨false, capitalDigits n, capitalDigits_ne_nil n, isHexDigit_capitalDigits n⟩

theorem startsHex_text (h : HexNumeral) : startsHex h.text = true := by
  obtain ⟨capital, digits, hne, hdigits⟩ := h
  obtain ⟨d, digits, rfl⟩ := List.exists_cons_of_ne_nil hne
  have hd := hdigits d List.mem_cons_self
  cases capital <;> simp [text, startsHex, hd]

theorem hexDigits_text (h : HexNumeral) : hexDigits h.text = h.digits := by
  rw [hexDigits, h.startsHex_text, if_pos rfl]
  exact List.takeWhile_eq_self_iff.2 h.isHexDigit_digits

end HexNumeral

namespace Quantity

variable [DigitLimit]

/-- A hexadecimal numeral is read to its end. -/
theorem readLiteral_hex (h : HexNumeral) : readLiteral h.text = .ok (ofHex h.digits) [] := by
  have hskip : skipBlanks h.text = h.text := rfl
  have hlength : 2 + h.digits.length = h.text.length := by
    rw [HexNumeral.text, List.length_cons, List.length_cons]
    omega
  rw [readLiteral_of_startsHex (hskip ▸ h.startsHex_text), hskip, h.hexDigits_text, hlength,
    List.drop_length]

end Quantity

/-! ## Showing -/

/-- What the register holds for a number. -/
def registerOf (n : Int64) : Nat :=
  (n.toInt % 2 ^ 64).toNat

/-- Read as a number of its own, that wraps to the number it is held for. -/
theorem ofInt_registerOf (n : Int64) : Int64.ofInt (registerOf n) = n := by
  have hregister : (registerOf n : Int) = n.toInt % 2 ^ 64 :=
    Int.toNat_of_nonneg (Int.emod_nonneg _ (by decide))
  rw [hregister, ← Int.fmod_eq_emod_of_nonneg _ (by decide), int64_ofInt_fmod, Int64.ofInt_toInt]

/-- What is not negative is held as it is. -/
theorem registerOf_of_nonneg {n : Int64} (h : 0 ≤ n.toInt) : (registerOf n : Int) = n.toInt := by
  have hlt := n.toInt_lt
  rw [registerOf, Int.emod_eq_of_lt h (by omega), Int.toNat_of_nonneg h]

/-- The directive in the format of hexadecimal literals. -/
def Format.Directive.hex : Directive :=
  ⟨false, false, false, false, false, .absent, .absent, 'X', 3⟩

theorem Format.show?_hex (n : Nat) :
    show? Quantity.hexFormat (.whole n) = .ok (String.ofList (HexNumeral.ofNat n).text) := by
  have hpieces : pieces Quantity.hexFormat.toList =
      ['0', 'x'].map .char ++ [.directive .hex] := by decide
  have hsign : Directive.hex.signOf (decide ((n : Int) < 0)) = [] := by
    rw [decide_eq_false (by omega)]
    rfl
  have hfield : Directive.hex.field (.whole n) = .ok ⟨[], [], capitalDigits n, true⟩ := by
    change Except.ok (Field.upper ⟨Directive.hex.signOf _, [], Nat.toDigits 16 n, true⟩) = _
    rw [hsign]
    rfl
  rw [show?_of_pieces _ hpieces nofun nofun, hfield, HexNumeral.text]
  change Except.ok (String.ofList ('0' :: 'x' :: Field.padded _ _)) = _
  rw [Field.padded_of_absent _ rfl]
  rfl

namespace Display

/-- A format that shows the register is given what that holds. -/
theorem registered_toInt {format : String} (hshows : showsRegister format = true) (n : Int64) :
    registered format n.toInt = (registerOf n : Int) := by
  rw [registered, hshows, Bool.and_true]
  split
  · exact (Int.toNat_of_nonneg (Int.emod_nonneg _ (by decide))).symm
  · rename_i hneg
    exact (registerOf_of_nonneg (by simpa using hneg)).symm

theorem whole_hex (n : Int64) :
    Display.whole Quantity.hexFormat n.toInt =
      String.ofList (HexNumeral.ofNat (registerOf n)).text := by
  have hshows : showsRegister Quantity.hexFormat = true := by decide
  rw [Display.whole, registered_toInt hshows, Format.show?_hex]

end Display

namespace Quantity

/-- A number of the register without a unit, to be shown in hexadecimal. -/
def inHex (n : Int64) : Quantity where
  magnitude := .whole n
  format := hexFormat

theorem text_of_hex (settings : Settings) {q : Quantity} {n : Int64}
    (hmagnitude : q.magnitude = .whole n) (hmeasure : q.measure = .plain)
    (hformat : q.format = hexFormat) :
    q.text settings = .ok (String.ofList (HexNumeral.ofNat (registerOf n)).text) := by
  have hfirst (other : String) : firstFormat hexFormat other = hexFormat := rfl
  rw [text, hmagnitude, hmeasure, hformat]
  dsimp only
  rw [hfirst, Display.whole_hex]
  exact congrArg Except.ok String.append_empty

/-- What the register holds is read as the number that it holds it for. -/
theorem magnitude_ofRegister (n : Int64) :
    (ofHex (capitalDigits (registerOf n))).magnitude = .whole n := by
  rw [ofHex, valueIn_capitalDigits, Magnitude.ofInt, ofInt_registerOf]

variable [DigitLimit]

/-- A number of the register, shown in hexadecimal, is read to its end as that number, to be
    shown in hexadecimal again. A hexadecimal numeral of any size is read to its end as the
    place of its value in the register, and reads back when it is shown. -/
theorem hex_readsBack (settings : Settings) :
    (∀ n : Int64, ∃ q,
      (inHex n).text settings = .ok (String.ofList (HexNumeral.ofNat (registerOf n)).text) ∧
      readLiteral (HexNumeral.ofNat (registerOf n)).text = .ok q [] ∧
      q.magnitude = .whole n ∧ q.measure = .plain ∧ q.format = hexFormat) ∧
    ∀ h : HexNumeral, ∃ q, readLiteral h.text = .ok q [] ∧ q.magnitude = .ofInt h.value ∧
      q.measure = .plain ∧ q.format = hexFormat ∧ q.ReadsBack settings := by
  refine ⟨fun n => ?_, fun h => ?_⟩
  · exact ⟨_, text_of_hex settings rfl rfl rfl, readLiteral_hex _, magnitude_ofRegister n, rfl, rfl⟩
  · let n := Int64.ofInt h.value
    have htext : (ofHex h.digits).text settings = _ := text_of_hex settings (n := n) rfl rfl rfl
    have htext' : (ofHex (capitalDigits (registerOf n))).text settings = _ :=
      text_of_hex settings (magnitude_ofRegister n) rfl rfl
    refine ⟨ofHex h.digits, readLiteral_hex h, rfl, rfl, rfl, _, _, htext, ?_,
      magnitude_ofRegister n, Measure.sameAs_refl _, htext'⟩
    rw [String.toList_ofList]
    exact readLiteral_hex _

end Quantity

end Reckoner
