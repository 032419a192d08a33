import Reckoner.Proofs.Reading.Grammar
import Reckoner.Proofs.Reading.Names

/-!
# Words for units

Letters right behind digits are taken for a unit as one word, or not at all. Reading looks for
the longest spelling that the text begins with, and takes it unless a letter follows. At a word
that is a spelling this is the word itself; at another one it is a part of the word, if there
is any, and the letter behind that part keeps it from being taken
(`Quantity.readLiteral_unitWord`).

Not all spellings are words: some have digits in them, and some are quotation marks. So this
holds of a word that ends in front of something else than those (`Text.EndsWord`).
-/

namespace Reckoner

open Text

/-- Neither a word nor a spelling with digits or quotation marks in it goes on here, and no
    unit is separated by a colon. -/
def Text.EndsWord (behind : List Char) : Prop :=
  ∀ c ∈ behind.head?, c.isAlpha = false ∧ c.isDigit = false ∧ c ≠ ':' ∧ c ≠ '"'

namespace Measure.Spelling

/-- The character is found in spellings. -/
def hasPart (c : Char) : Bool :=
  c.isAlpha || c.isDigit || c == '"'

theorem hasPart_of_mem : ∀ s ∈ table, ∀ c ∈ s.spelling.toList, hasPart c = true := by
  have hall : ∀ s ∈ table, s.spelling.toList.all hasPart = true := by decide +kernel
  exact fun s hs => List.all_eq_true.1 (hall s hs)

variable {word behind : List Char}

theorem begins?_word (hbehind : EndsWord behind) : begins? (word ++ behind) = begins? word := by
  refine longestMatch_append fun s hs c hc hmem => ?_
  have hpart := hasPart_of_mem s hs c hmem
  obtain ⟨hletter, hdigit, -, hquote⟩ := hbehind c hc
  simp [hasPart, hletter, hdigit, hquote] at hpart

theorem begins?_endsWord (hbehind : EndsWord behind) : begins? behind = none := by
  have hnone : begins? ([] ++ behind) = begins? [] := begins?_word hbehind
  exact hnone.trans (by decide)

end Measure.Spelling

theorem Text.EndsWord.startsLetter_eq {behind : List Char} (h : EndsWord behind) :
    startsLetter behind = false := by
  cases behind with
  | nil => rfl
  | cons c rest => exact (h c rfl).1

namespace Quantity

variable {word behind : List Char}

/-- A word for a unit is taken, and nothing behind it. -/
theorem readSuffixes_word (q : Quantity) {s : Measure.Spelling} (hs : s ∈ Measure.Spelling.table)
    (hbehind : EndsWord behind) :
    q.readSuffixes (s.spelling.toList ++ behind) = .ok { q with measure := s.measure } behind := by
  have hbegins : Measure.Spelling.begins? (s.spelling.toList ++ behind) = some s :=
    (Measure.Spelling.begins?_word hbehind).trans
      (longestMatch_self Measure.Spelling.nodup_spelling hs)
  have hend : { q with measure := s.measure }.readSuffixPart behind = _ :=
    readSuffixPart_of_none _ (Measure.Spelling.begins?_endsWord hbehind)
      fun c hc => (hbehind c hc).2.2.1
  rw [readSuffixes_eq]
  refine (bind_of_ok (q.readSuffixPart_word hs hbegins hbehind.startsLetter_eq)).trans ?_
  dsimp only
  rw [if_pos rfl, readSuffixes_eq]
  exact bind_of_ok hend

/-- A word that is none for a unit is left. -/
theorem readSuffixes_other (q : Quantity) (hne : word ≠ []) (hword : ∀ c ∈ word, c.isAlpha = true)
    (hother : ∀ s ∈ Measure.Spelling.table, s.spelling.toList ≠ word) (hbehind : EndsWord behind) :
    q.readSuffixes (word ++ behind) = .ok q (word ++ behind) := by
  -- What is found at the word is a part of it, with a letter behind.
  have hwithin (s : Measure.Spelling) (hs : Measure.Spelling.begins? (word ++ behind) = some s) :
      startsLetter ((word ++ behind).drop s.spelling.length) = true := by
    rw [Measure.Spelling.begins?_word hbehind] at hs
    obtain ⟨rest, rfl⟩ := startsWith_iff.1 (startsWith_of_longestMatch hs)
    obtain - | ⟨c, rest⟩ := rest
    · exact absurd (List.append_nil _).symm (hother s (mem_of_longestMatch hs))
    · rw [List.append_assoc, drop_spelling]
      exact hword c (List.mem_append_right _ List.mem_cons_self)
  have hcolon : ∀ c ∈ (word ++ behind).head?, c ≠ ':' := by
    obtain ⟨c, rest, rfl⟩ := List.exists_cons_of_ne_nil hne
    rintro d hd rfl
    cases Option.some.inj hd
    cases hword ':' List.mem_cons_self
  rw [readSuffixes_eq]
  exact bind_of_ok (q.readSuffixPart_of_within hcolon hwithin)

/-- Right behind the digits of a number, a word is its unit if it is one, and is left as it is
    if it is none. With too many digits there is no number, and no word is read. -/
theorem readLiteral_unitWord [DigitLimit] {digits : List Char} (hdigits : digits ≠ [])
    (hdigit : ∀ c ∈ digits, c.isDigit = true) (hne : word ≠ [])
    (hword : ∀ c ∈ word, c.isAlpha = true) (hbehind : EndsWord behind)
    (hhex : ¬Begins IsHexadecimal (digits ++ (word ++ behind))) :
    match (⟨false, digits, none⟩ : Numeral).fault? with
    | none =>
      (∀ s ∈ Measure.Spelling.table, s.spelling.toList = word →
        readLiteral (digits ++ (word ++ behind)) =
          .ok { ofNumeral ⟨false, digits, none⟩ with measure := s.measure } behind) ∧
      ((∀ s ∈ Measure.Spelling.table, s.spelling.toList ≠ word) →
        readLiteral (digits ++ (word ++ behind)) =
          .ok (ofNumeral ⟨false, digits, none⟩) (word ++ behind)) ∧
      (ofNumeral ⟨false, digits, none⟩).measure = .plain
    | some f =>
      f.ExceedsLimit ∧
        readLiteral (digits ++ (word ++ behind)) = .error (.fault f) (word ++ behind) := by
  let n : Numeral := ⟨false, digits, none⟩
  have htext : n.text = digits := by
    rw [Numeral.text_eq hdigits]
    exact List.append_nil _
  have hhead : ∀ c ∈ (word ++ behind).head?, c.isDigit = false ∧ c ≠ '.' := by
    obtain ⟨c, rest, rfl⟩ := List.exists_cons_of_ne_nil hne
    have hc := hword c List.mem_cons_self
    rintro d hd
    cases Option.some.inj hd
    refine ⟨isDigit_of_isAlpha hc, ?_⟩
    rintro rfl
    cases hc
  have hread : readLiteral (digits ++ (word ++ behind)) =
      (takeNumeral n >>= readSuffixes) (word ++ behind) := by
    rw [← HexNumeral.startsHex_iff, Bool.not_eq_true] at hhex
    have hdecimal := readLiteral_decimal hdigits hdigit (n := n) (List.forall_mem_nil _) hhead
    rw [htext] at hdecimal
    exact hdecimal hhex
  cases hfault : n.fault? with
  | some f =>
    rw [takeNumeral_bind_of_fault? hfault] at hread
    exact ⟨Numeral.exceedsLimit_of_fault? hfault, hread⟩
  | none =>
    rw [takeNumeral_bind hfault] at hread
    refine ⟨?_, fun hother => ?_, rfl⟩
    · rintro s hs rfl
      exact hread.trans (readSuffixes_word _ hs hbehind)
    · exact hread.trans (readSuffixes_other _ hne hword hother hbehind)

/-- Kilometers, in front of an operator. -/
theorem readLiteral_kilometers :
    readLiteral "5km/h".toList =
      .ok { ofNumeral ⟨false, ['5'], none⟩ with measure := ⟨.length, "km", "km"⟩ } "/h".toList := by
  have hmem : (⟨"km", ⟨.length, "km", "km"⟩, "kilometers"⟩ : Measure.Spelling) ∈
      Measure.Spelling.table := by
    decide +kernel
  have hends : EndsWord "/h".toList := fun c hc => Option.some.inj hc ▸ by decide
  have hhex : ¬Begins IsHexadecimal "5km/h".toList := by
    rw [← HexNumeral.startsHex_iff]
    decide
  have hdigit : ∀ c ∈ ['5'], c.isDigit = true := List.forall_mem_singleton.2 rfl
  have hword : ∀ c ∈ "km".toList, c.isAlpha = true := List.all_eq_true.1 (by decide)
  exact (readLiteral_unitWord (List.cons_ne_nil _ _) hdigit (by decide) hword hends hhex).1 _
    hmem rfl

/-- Behind more digits than there usually may be, no unit is read. -/
theorem readLiteral_ones_kilometers :
    readLiteral (List.replicate 4301 '1' ++ "km".toList) =
      .error (.fault (.tooManyDigits 4300 4301)) "km".toList := by
  rw [← Literal.text_ones 4300]
  exact readLiteral_overlong _ Literal.fault?_ones_usual fun c hc => Option.some.inj hc ▸ by decide

end Quantity

end Reckoner
