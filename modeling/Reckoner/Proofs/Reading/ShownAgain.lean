import Mathlib.Data.Nat.Digits.Defs
import Reckoner.Proofs.Phrase.Words

/-!
# Reading what is shown

A whole number in the default format is shown in plain digits, with the text of
its unit right behind them. That reads as the same quantity again, and is shown
in the same way, exactly if the text of the unit is a word for it
(`Quantity.readsBack_iff`).

Four units have another text. Those of angstroms, farads and henrys are words for
amps, degrees Fahrenheit and hours, so that they are taken for these; and of the
text of foot-wavelengths, which is no word, only the feet are read.
-/

namespace Reckoner

open Text

/-! ## Whole numbers in digits -/

namespace Numeral

/-- The numeral of a whole number. -/
def ofInt (n : Int) : Numeral where
  negative := n < 0
  whole := Nat.toDigits 10 n.natAbs
  places := none

theorem isDigit_whole_ofInt (n : Int) : ∀ c ∈ (ofInt n).whole, c.isDigit = true := fun _ =>
  Nat.isDigit_of_mem_toDigits (by decide) (by decide)

theorem valueIn_toDigits (n : Nat) : valueIn 10 (Nat.toDigits 10 n) = n := by
  calc valueIn 10 (Nat.toDigits 10 n)
      = Nat.ofDigitChars 10 (Nat.toDigits 10 n) 0 :=
        List.foldl_ext _ _ _ fun _ c hc => by
          rw [digitValue, if_pos (Nat.isDigit_of_mem_toDigits (by decide) (by decide) hc)]
    _ = n := Nat.ofDigitChars_ten_toDigits

theorem magnitude_ofInt (n : Int) : (ofInt n).magnitude = .ofInt n := by
  rw [magnitude, ofInt]
  dsimp only
  rw [valueIn_toDigits]
  congr 1
  split
  · rename_i hneg
    have : n < 0 := by simpa using hneg
    omega
  · rename_i hneg
    have : ¬n < 0 := by simpa using hneg
    omega

/-- A number that can be written with as many digits as any limit allows. -/
theorem fits_ofInt [DigitLimit] {n : Int} {digits : Nat} (h : n.natAbs < 10 ^ digits)
    (hpos : 0 < digits) (hdigits : digits ≤ 640) : (ofInt n).Fits :=
  fits_of_length_le (Nat.le_trans (Nat.toDigits_length 10 n.natAbs digits hpos h) hdigits)

/-- No number of the register has too many digits. -/
theorem fits_ofInt_toInt [DigitLimit] (n : Int64) : (ofInt n.toInt).Fits := by
  have hlo := n.le_toInt
  have hhi := n.toInt_lt
  have hlt : n.toInt.natAbs < 10 ^ 19 := by omega
  exact fits_ofInt hlt (by decide) (by decide)

theorem text_ofInt (n : Int) :
    (ofInt n).text = (if n < 0 then ['-'] else []) ++ Nat.toDigits 10 n.natAbs := by
  rw [text_eq Nat.toDigits_ne_nil]
  simp [ofInt]

end Numeral

namespace Format

/-- The directive of the default format for whole numbers. -/
def Directive.plain : Directive :=
  ⟨false, false, false, false, false, .absent, .absent, 'd', 1⟩

/-- The field of a whole number in plain digits. -/
def plainField (n : Int) : Field :=
  ⟨Directive.plain.signOf (n < 0), [], Nat.toDigits 10 n.natAbs, true⟩

theorem padded_plainField (n : Int) : (plainField n).padded .plain = (Numeral.ofInt n).text := by
  rw [Numeral.text_ofInt]
  by_cases hneg : n < 0
  · simp [plainField, Field.padded, Directive.plain, Directive.signOf, hneg]
  · simp [plainField, Field.padded, Directive.plain, Directive.signOf, hneg]

theorem show?_plain (n : Int) :
    show? "%d" (.whole n) = .ok (String.ofList (Numeral.ofInt n).text) := by
  have hpieces : pieces "%d".toList = [].map .char ++ [.directive .plain] := by decide
  rw [show?_of_pieces _ hpieces nofun nofun, ← padded_plainField]
  rfl

end Format

theorem Display.whole_plain (n : Int) :
    Display.whole "%d" n = String.ofList (Numeral.ofInt n).text := by
  have hregistered : registered "%d" n = n := by
    have hshows : showsRegister "%d" = false := by decide
    rw [registered, hshows, Bool.and_false, if_neg Bool.false_ne_true]
  rw [Display.whole, hregistered, Format.show?_plain]

/-! ## Reading the text of a unit -/

namespace Measure

/-- The text of the unit is no word for it. -/
def isMisread (m : Measure) : Bool :=
  m.key == "Ang" || m.key == "capF" || m.key == "indH" || m.key == "ftw"

/-- The text of a unit is a word for it or for another unit, save for `ft-wave`. -/
theorem Spelling.exists_spelling_display :
    ∀ s ∈ table, s.measure.display ≠ "ft-wave" → ∃ s' ∈ table, s'.spelling = s.measure.display ∧
      if s.measure.isMisread then s'.measure.sameAs s.measure = false
      else s'.measure = s.measure := by
  decide +kernel

theorem Spelling.isMisread_of_display :
    ∀ s ∈ table, s.measure.display = "ft-wave" → s.measure.isMisread = true := by
  decide +kernel

end Measure

namespace Quantity

/-! ## Whole numbers of a unit -/

/-- What a whole number without a format of its own is shown as. -/
theorem text_of_whole {q : Quantity} {n : Int64} (hmagnitude : q.magnitude = .whole n)
    (hformat : q.format = "") :
    q.text .default =
      .ok (String.ofList ((Numeral.ofInt n.toInt).text ++ q.measure.display.toList)) := by
  have hdefault : firstFormat "" Settings.default.wholeFormat = "%d" := rfl
  rw [text, hmagnitude, hformat]
  dsimp only
  rw [hdefault, Display.whole_plain, String.ofList_append, String.ofList_toList]

section

variable [DigitLimit]

/-- A whole number is read with the word for a unit behind it. -/
theorem readLiteral_ofInt (n : Int64) {s : Measure.Spelling} (hs : s ∈ Measure.Spelling.table) :
    readLiteral ((Numeral.ofInt n.toInt).text ++ s.spelling.toList) =
      .ok { ofNumeral (Numeral.ofInt n.toInt) with measure := s.measure } [] := by
  let l : Literal :=
    ⟨Numeral.ofInt n.toInt, some s, Nat.toDigits_ne_nil, Numeral.isDigit_whole_ofInt n.toInt, nofun,
      fun _ h => Option.some.inj h ▸ hs⟩
  have hread := readLiteral_text l (.inl rfl) (Numeral.fits_ofInt_toInt n)
  rw [List.append_nil] at hread
  exact hread

/-- Of the text of foot-wavelengths, the feet are read. -/
theorem readLiteral_footWave (n : Int64) :
    ∃ q, readLiteral ((Numeral.ofInt n.toInt).text ++ "ft-wave".toList) = .ok q "-wave".toList := by
  have hbehind : ∀ c ∈ "ft-wave".toList.head?,
      c.isDigit = false ∧ c ≠ '.' ∧ c ≠ 'x' ∧ c ≠ 'X' := by
    intro c hc
    have hc : some 'f' = some c := hc
    obtain rfl := Option.some.inj hc
    decide
  rw [readLiteral_numeral Nat.toDigits_ne_nil (Numeral.isDigit_whole_ofInt n.toInt)
    (List.forall_mem_nil _) hbehind, takeNumeral_bind (Numeral.fits_ofInt_toInt n)]
  exact ⟨_, rfl⟩

/-! ## Quantities -/

/-- A whole number of a measure, in the default format. -/
def ofWhole (n : Int64) (measure : Measure) : Quantity where
  magnitude := .whole n
  measure := measure

/-- The text of the quantity is that of a literal with the same number and the
    same unit, which has the same text again. -/
def ReadsBack (settings : Settings) (q : Quantity) : Prop :=
  ∃ text q', q.text settings = .ok text ∧ readLiteral text.toList = .ok q' [] ∧
    q'.magnitude = q.magnitude ∧ q'.measure.sameAs q.measure = true ∧
      q'.text settings = .ok text

/-- What is left behind the feet is not read. -/
theorem not_readsBack_of_display (n : Int64) {m : Measure} (h : m.display = "ft-wave") :
    ¬(ofWhole n m).ReadsBack .default := by
  rintro ⟨text, q', htext, hread, -⟩
  obtain ⟨q, hwave⟩ := readLiteral_footWave n
  rw [text_of_whole rfl rfl] at htext
  obtain rfl := Except.ok.inj htext
  rw [String.toList_ofList, ofWhole, h, hwave] at hread
  cases hread

/-- A whole number of a unit reads back if the text of the unit is a word for it,
    and only then. -/
theorem readsBack_iff (n : Int64) {s : Measure.Spelling} (hs : s ∈ Measure.Spelling.table) :
    (ofWhole n s.measure).ReadsBack .default ↔ s.measure.isMisread = false := by
  by_cases hdisplay : s.measure.display = "ft-wave"
  · rw [Measure.Spelling.isMisread_of_display s hs hdisplay]
    exact ⟨fun h => absurd h (not_readsBack_of_display n hdisplay), nofun⟩
  · -- The text is a word for some unit, and read as that.
    obtain ⟨s', hs', hspelling, hword⟩ :=
      Measure.Spelling.exists_spelling_display s hs hdisplay
    have htext : (ofWhole n s.measure).text .default =
        .ok (String.ofList ((Numeral.ofInt n.toInt).text ++ s.measure.display.toList)) :=
      text_of_whole rfl rfl
    have hread := readLiteral_ofInt n hs'
    rw [hspelling] at hread
    cases hmisread : s.measure.isMisread with
    | true =>
      rw [hmisread, if_pos rfl] at hword
      refine ⟨?_, nofun⟩
      rintro ⟨text, q', heq, hread', -, hsame, -⟩
      obtain rfl := Except.ok.inj (htext.symm.trans heq)
      rw [String.toList_ofList, hread] at hread'
      obtain ⟨rfl, -⟩ := EStateM.Result.ok.inj hread'
      exact absurd (hword.symm.trans hsame) Bool.false_ne_true
    | false =>
      rw [hmisread, if_neg Bool.false_ne_true] at hword
      rw [hword, ← String.toList_ofList (l := _ ++ _)] at hread
      have hmagnitude : (Numeral.ofInt n.toInt).magnitude = .whole n := by
        rw [Numeral.magnitude_ofInt, Magnitude.ofInt, Int64.ofInt_toInt]
      have hagain : Quantity.text .default { ofNumeral (Numeral.ofInt n.toInt) with
          measure := s.measure } = _ :=
        text_of_whole (n := n) hmagnitude rfl
      refine ⟨fun _ => rfl, fun _ => ?_⟩
      exact ⟨_, _, htext, hread, hmagnitude, s.measure.sameAs_refl, hagain⟩

end

/-- Forty degrees below zero. -/
theorem minus_forty_reads_back :
    (⟨"F", ⟨.temperature, "F", "F"⟩, "Fahrenheit"⟩ : Measure.Spelling) ∈ Measure.Spelling.table ∧
      (ofWhole (-40) ⟨.temperature, "F", "F"⟩).ReadsBack .default := by
  have hF : (⟨"F", ⟨.temperature, "F", "F"⟩, "Fahrenheit"⟩ : Measure.Spelling) ∈
    Measure.Spelling.table := by decide
  have hword : Measure.isMisread ⟨.temperature, "F", "F"⟩ = false := by decide
  exact ⟨hF, (readsBack_iff (-40) hF).2 hword⟩

/-- Five foot-wavelengths are shown as what reads as five feet, and not to its
    end. -/
theorem foot_waves_misread :
    ¬(ofWhole 5 ⟨.wavelength, "ftw", "ft-wave"⟩).ReadsBack .default := by
  have hdisplay : (⟨.wavelength, "ftw", "ft-wave"⟩ : Measure).display = "ft-wave" := rfl
  exact not_readsBack_of_display 5 hdisplay

end Quantity

end Reckoner
