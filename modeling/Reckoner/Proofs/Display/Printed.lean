import Mathlib.Data.Rat.Cast.Lemmas
import Reckoner.Format.Show
import Reckoner.Proofs.Conversion.Exact

/-!
# Printed numerals

A numeral can have an exponent of ten behind it, with a letter, a sign and digits
(`PrintedNumeral`). It can be told from its text, and so can the number it stands for.

The conversions for real numbers print such numerals (`Format.Directive.field_printed`), in
fixed places, in scientific notation or in the shorter of the two. Whether the letter of the
exponent is a capital is up to the conversion.
-/

namespace Reckoner

open Text

/-! ## Numerals with an exponent -/

/-- An exponent of ten behind a numeral. -/
structure PrintedExponent where
  /-- The letter is `E`, not `e`. -/
  capital : Bool
  negative : Bool
  digits : List Char
  digits_ne_nil : digits ≠ []
  isDigit_digits : ∀ c ∈ digits, c.isDigit = true

namespace PrintedExponent

def letter (e : PrintedExponent) : Char :=
  if e.capital then 'E' else 'e'

def sign (e : PrintedExponent) : Char :=
  if e.negative then '-' else '+'

def text (e : PrintedExponent) : List Char :=
  e.letter :: e.sign :: e.digits

def value (e : PrintedExponent) : Int :=
  if e.negative then -(valueIn 10 e.digits) else valueIn 10 e.digits

theorem text_injective {e e' : PrintedExponent} (h : e.text = e'.text) : e = e' := by
  obtain ⟨capital, negative, digits, _, _⟩ := e
  obtain ⟨capital', negative', digits', _, _⟩ := e'
  obtain ⟨hletter, hrest⟩ := List.cons.inj h
  obtain ⟨hsign, rfl⟩ := List.cons.inj hrest
  obtain rfl : capital = capital' := by
    cases capital <;> cases capital' <;> first | rfl | cases hletter
  obtain rfl : negative = negative' := by
    cases negative <;> cases negative' <;> first | rfl | cases hsign
  rfl

theorem point_notMem_text (e : PrintedExponent) : '.' ∉ e.text := by
  intro h
  rcases List.mem_cons.1 h with h | h
  · rw [letter] at h
    split at h <;> cases h
  · rcases List.mem_cons.1 h with h | h
    · rw [sign] at h
      split at h <;> cases h
    · cases e.isDigit_digits '.' h

end PrintedExponent

/-- A numeral that begins with a digit or with a minus sign and a digit, and an exponent behind
    it if there is one. -/
structure PrintedNumeral where
  mantissa : Numeral
  exponent : Option PrintedExponent
  whole_ne_nil : mantissa.whole ≠ []
  isDigit_whole : ∀ c ∈ mantissa.whole, c.isDigit = true
  isDigit_places : ∀ c ∈ mantissa.places.getD [], c.isDigit = true

namespace PrintedNumeral

variable {n t : PrintedNumeral}

def exponentText (n : PrintedNumeral) : List Char :=
  (n.exponent.map PrintedExponent.text).getD []

def text (n : PrintedNumeral) : List Char :=
  n.mantissa.text ++ n.exponentText

/-- The number that the numeral stands for. -/
def value (n : PrintedNumeral) : ℚ :=
  n.mantissa.exact * 10 ^ (n.exponent.map PrintedExponent.value).getD 0

/-- Only a mantissa goes on with digits or a point. -/
theorem mantissa_append_inj {rest rest' : List Char}
    (hrest : ∀ c ∈ rest.head?, c.isDigit = false ∧ c ≠ '.')
    (hrest' : ∀ c ∈ rest'.head?, c.isDigit = false ∧ c ≠ '.')
    (h : n.mantissa.text ++ rest = t.mantissa.text ++ rest') :
    n.mantissa = t.mantissa ∧ rest = rest' := by
  have hread := Numeral.read_text n.whole_ne_nil n.isDigit_whole n.isDigit_places hrest
  rw [h, Numeral.read_text t.whole_ne_nil t.isDigit_whole t.isDigit_places hrest'] at hread
  exact ⟨(Prod.mk.inj hread).1.symm, (Prod.mk.inj hread).2.symm⟩

theorem mem_exponentText {c : Char} (h : c ∈ n.exponentText) : ∃ e ∈ n.exponent, c ∈ e.text := by
  rw [exponentText] at h
  rcases he : n.exponent with _ | e
  · rw [he] at h
    cases h
  · rw [he] at h
    exact ⟨e, rfl, h⟩

theorem mem_head?_exponentText {c : Char} (h : c ∈ n.exponentText.head?) :
    ∃ e ∈ n.exponent, c = e.letter := by
  rw [exponentText] at h
  rcases he : n.exponent with _ | e
  · rw [he] at h
    cases h
  · rw [he] at h
    exact ⟨e, rfl, (Option.some.inj h).symm⟩

theorem head?_exponentText (n : PrintedNumeral) :
    ∀ c ∈ n.exponentText.head?, c.isDigit = false ∧ c ≠ '.' := by
  intro c hc
  obtain ⟨e, -, rfl⟩ := mem_head?_exponentText hc
  rw [PrintedExponent.letter]
  split <;> decide

/-- A text is that of one numeral at most. -/
theorem text_injective (h : n.text = t.text) : n = t := by
  -- The numeral at the head can be read off, and what is left is the exponent.
  obtain ⟨hmantissa, hexponent⟩ :=
    mantissa_append_inj n.head?_exponentText t.head?_exponentText h
  obtain ⟨mantissa, exponent, _, _, _⟩ := n
  obtain ⟨mantissa', exponent', _, _, _⟩ := t
  obtain rfl : mantissa = mantissa' := hmantissa
  obtain rfl : exponent = exponent' := by
    cases exponent with
    | none =>
      cases exponent' with
      | none => rfl
      | some e' => cases hexponent
    | some e =>
      cases exponent' with
      | none => cases hexponent
      | some e' => exact congrArg some (PrintedExponent.text_injective hexponent)
  rfl

/-- The sign and the digits before the point. -/
def front (n : PrintedNumeral) : List Char :=
  (if n.mantissa.negative then ['-'] else []) ++ n.mantissa.whole

theorem mem_front {c : Char} (h : c ∈ n.front) : c = '-' ∨ c.isDigit = true := by
  rcases List.mem_append.1 h with h | h
  · split at h
    · exact .inl (List.mem_singleton.1 h)
    · cases h
  · exact .inr (n.isDigit_whole c h)

theorem mantissa_text_of_none (h : n.mantissa.places = none) : n.mantissa.text = n.front := by
  rw [Numeral.text_eq n.whole_ne_nil, h]
  exact congrArg _ (List.append_nil _)

theorem mantissa_text_of_some {places : List Char} (h : n.mantissa.places = some places) :
    n.mantissa.text = n.front ++ '.' :: places := by
  rw [Numeral.text_eq n.whole_ne_nil, h, front, List.append_assoc]
  rfl

theorem mem_mantissa_text {c : Char} (h : c ∈ n.mantissa.text) :
    c = '-' ∨ c = '.' ∨ c.isDigit = true := by
  cases hn : n.mantissa.places with
  | none =>
    rw [mantissa_text_of_none hn] at h
    exact (mem_front h).imp_right .inr
  | some places =>
    rw [mantissa_text_of_some hn] at h
    rcases List.mem_append.1 h with h | h
    · exact (mem_front h).imp_right .inr
    · rcases List.mem_cons.1 h with rfl | h
      · exact .inr (.inl rfl)
      · exact .inr (.inr (n.isDigit_places c (by rwa [hn])))

end PrintedNumeral


namespace PrintedNumeral

variable {n : PrintedNumeral}

/-- The numeral with a sign of its own. -/
def signed (n : PrintedNumeral) (negative : Bool) : PrintedNumeral :=
  { n with mantissa := { n.mantissa with negative := negative } }

theorem text_signed (h : n.mantissa.negative = false) (negative : Bool) :
    (n.signed negative).text = (if negative then ['-'] else []) ++ n.text := by
  have hsigned : (n.signed negative).mantissa.whole ≠ [] := n.whole_ne_nil
  rw [text, text, Numeral.text_eq hsigned, Numeral.text_eq n.whole_ne_nil, h]
  simp only [signed, exponentText, Bool.false_eq_true, if_false, List.nil_append,
    List.append_assoc]
  rfl

end PrintedNumeral

/-! ## Capital letters -/

/-- Signs, points and digits are not letters. -/
theorem toUpper_eq {c : Char} (h : c = '-' ∨ c = '+' ∨ c = '.' ∨ c.isDigit = true) :
    c.toUpper = c := by
  rcases h with rfl | rfl | rfl | h
  · rfl
  · rfl
  · rfl
  · simp only [Char.isDigit, Bool.and_eq_true, decide_eq_true_eq] at h
    -- Small letters come behind the digits.
    have hle : c.val.toNat ≤ 57 := UInt32.le_iff_toNat_le.1 h.2
    refine dif_neg fun hc => ?_
    have hge : 97 ≤ c.val.toNat := UInt32.le_iff_toNat_le.1 hc.1
    omega

def PrintedExponent.upper (e : PrintedExponent) : PrintedExponent :=
  { e with capital := true }

theorem PrintedExponent.text_upper (e : PrintedExponent) :
    e.upper.text = e.text.map Char.toUpper := by
  have hletter : e.letter.toUpper = 'E' := by
    rw [letter]
    split <;> rfl
  have hsign : e.sign.toUpper = e.sign := by
    rw [sign]
    split <;> rfl
  have hdigits : e.digits.map Char.toUpper = e.digits :=
    (List.map_congr_left fun c hc => toUpper_eq (.inr (.inr (.inr (e.isDigit_digits c hc))))).trans
      (List.map_id _)
  rw [text, text, List.map_cons, List.map_cons, hletter, hsign, hdigits]
  rfl

/-- The numeral with a capital exponent, if with any. -/
def PrintedNumeral.upper (n : PrintedNumeral) : PrintedNumeral :=
  { n with exponent := n.exponent.map PrintedExponent.upper }

theorem PrintedNumeral.text_upper (n : PrintedNumeral) :
    n.upper.text = n.text.map Char.toUpper := by
  have hmantissa : n.mantissa.text.map Char.toUpper = n.mantissa.text := by
    refine (List.map_congr_left fun c hc => toUpper_eq ?_).trans (List.map_id _)
    rcases mem_mantissa_text hc with h | h | h
    · exact .inl h
    · exact .inr (.inr (.inl h))
    · exact .inr (.inr (.inr h))
  have hexponent : n.upper.exponentText = n.exponentText.map Char.toUpper := by
    rw [exponentText, exponentText, upper]
    cases n.exponent with
    | none => rfl
    | some e => exact e.text_upper
  rw [text, text, List.map_append, hmantissa, hexponent]
  rfl

/-! ## What the conversions print -/

/-- The text is that of a numeral without a sign, and with an exponent in capitals or in small
    letters if with any. -/
def IsPrintedSize (capital : Bool) (text : List Char) : Prop :=
  ∃ n : PrintedNumeral, n.mantissa.negative = false ∧
    (∀ e ∈ n.exponent, e.capital = capital) ∧ text = n.text

theorem IsPrintedSize.upper {text : List Char} (h : IsPrintedSize false text) :
    IsPrintedSize true (text.map Char.toUpper) := by
  obtain ⟨n, hnegative, -, rfl⟩ := h
  refine ⟨n.upper, hnegative, fun e he => ?_, n.text_upper.symm⟩
  obtain ⟨e', -, rfl⟩ := Option.map_eq_some_iff.1 he
  rfl

namespace Decimal

variable {capital : Bool}

theorem isDigit_digitsOf (n : Nat) : ∀ c ∈ digitsOf n, c.isDigit = true := fun _ =>
  Nat.isDigit_of_mem_toDigits (by decide) (by decide)

theorem isDigit_replicate_zero {k : Nat} : ∀ c ∈ List.replicate k '0', c.isDigit = true := by
  intro c hc
  rw [List.eq_of_mem_replicate hc]
  rfl

theorem isDigit_append {front behind : List Char} (hfront : ∀ c ∈ front, c.isDigit = true)
    (hbehind : ∀ c ∈ behind, c.isDigit = true) : ∀ c ∈ front ++ behind, c.isDigit = true :=
  fun c hc => (List.mem_append.1 hc).elim (hfront c) (hbehind c)

/-- The mantissa that is written with a point. -/
theorem pointed_eq {whole fraction : List Char} (keepPoint : Bool) (hne : whole ≠ []) :
    pointed keepPoint whole fraction =
      (Numeral.mk false whole
        (if fraction.isEmpty && !keepPoint then none else some fraction)).text := by
  rw [Numeral.text_eq hne, pointed]
  split <;> simp

/-- Digits with a point, and with an exponent or without. -/
theorem isPrintedSize_pointed_append {whole fraction : List Char} (keepPoint : Bool)
    (exponent : Option PrintedExponent) (hne : whole ≠ []) (hwhole : ∀ c ∈ whole, c.isDigit = true)
    (hfraction : ∀ c ∈ fraction, c.isDigit = true)
    (hexponent : ∀ e ∈ exponent, e.capital = capital) :
    IsPrintedSize capital
      (pointed keepPoint whole fraction ++ (exponent.map PrintedExponent.text).getD []) := by
  let mantissa : Numeral :=
    ⟨false, whole, if fraction.isEmpty && !keepPoint then none else some fraction⟩
  have hplaces : ∀ c ∈ mantissa.places.getD [], c.isDigit = true := by
    dsimp only [mantissa]
    split
    · exact List.forall_mem_nil _
    · exact hfraction
  exact ⟨⟨mantissa, exponent, hne, hwhole, hplaces⟩, rfl, hexponent,
    congrArg (· ++ _) (pointed_eq keepPoint hne)⟩

theorem isPrintedSize_pointed {whole fraction : List Char} (keepPoint : Bool) (hne : whole ≠ [])
    (hwhole : ∀ c ∈ whole, c.isDigit = true) (hfraction : ∀ c ∈ fraction, c.isDigit = true) :
    IsPrintedSize capital (pointed keepPoint whole fraction) := by
  have hprinted : IsPrintedSize capital (pointed keepPoint whole fraction ++ []) :=
    isPrintedSize_pointed_append keepPoint none hne hwhole hfraction nofun
  rwa [List.append_nil] at hprinted

theorem isPrintedSize_fixed (keepPoint : Bool) (num den places : Nat) :
    IsPrintedSize capital (fixed keepPoint num den places) := by
  rw [fixed]
  generalize hpadded : List.replicate _ '0' ++ digitsOf (roundShifted num den places) = padded
  have hdigits : ∀ c ∈ padded, c.isDigit = true := by
    rw [← hpadded]
    exact isDigit_append isDigit_replicate_zero (isDigit_digitsOf _)
  -- With the zeros in front, one digit at least is left before the point.
  have hlength : places < padded.length := by
    rw [← hpadded, List.length_append, List.length_replicate]
    omega
  have hne : padded.take (padded.length - places) ≠ [] := by
    rw [ne_eq, List.take_eq_nil_iff]
    rintro (h | h)
    · omega
    · rw [h] at hlength
      exact absurd hlength (Nat.not_lt_zero _)
  exact isPrintedSize_pointed keepPoint hne (fun c hc => hdigits c (List.mem_of_mem_take hc))
    fun c hc => hdigits c (List.mem_of_mem_drop hc)

/-- There are digits, and nothing else. -/
structure Proper (d : Decimal) : Prop where
  ne_nil : d.digits ≠ []
  isDigit : ∀ c ∈ d.digits, c.isDigit = true

theorem proper_leading (num den : Nat) {count : Nat} (h : 0 < count) :
    (leading num den count).Proper := by
  rw [leading]
  dsimp only
  split
  · exact ⟨by simp [h.ne'], isDigit_replicate_zero⟩
  · split <;> exact ⟨Nat.toDigits_ne_nil, isDigit_digitsOf _⟩

namespace Proper

variable {d : Decimal}

theorem trimmed (h : d.Proper) : d.trimmed.Proper := by
  obtain ⟨digits, exponent⟩ := d
  obtain ⟨first, others, rfl⟩ := List.exists_cons_of_ne_nil h.ne_nil
  refine ⟨List.cons_ne_nil _ _, fun c hc => h.isDigit c ?_⟩
  rcases List.mem_cons.1 hc with rfl | hc
  · exact List.mem_cons_self
  · have hothers := List.dropWhile_subset _ (List.mem_reverse.1 hc)
    exact List.mem_cons_of_mem _ (List.mem_reverse.1 hothers)

theorem isPrintedSize_positional (h : d.Proper) (keepPoint : Bool) :
    IsPrintedSize capital (d.positional keepPoint) := by
  rw [positional, places]
  split
  · exact isPrintedSize_pointed keepPoint (List.cons_ne_nil _ _) (List.forall_mem_singleton.2 rfl)
      (isDigit_append isDigit_replicate_zero h.isDigit)
  · have hne : d.digits.take (d.exponent.toNat + 1) ≠ [] := by simp [h.ne_nil]
    exact isPrintedSize_pointed keepPoint (List.append_ne_nil_of_left_ne_nil hne _)
      (isDigit_append (fun c hc => h.isDigit c (List.mem_of_mem_take hc)) isDigit_replicate_zero)
      fun c hc => h.isDigit c (List.mem_of_mem_drop hc)

/-- The exponent of scientific notation. -/
def printedExponent (e : Int) : PrintedExponent where
  capital := false
  negative := e < 0
  digits := List.replicate (2 - (digitsOf e.natAbs).length) '0' ++ digitsOf e.natAbs
  digits_ne_nil := List.append_ne_nil_of_right_ne_nil _ Nat.toDigits_ne_nil
  isDigit_digits := isDigit_append isDigit_replicate_zero (isDigit_digitsOf _)

theorem text_printedExponent (e : Int) : (printedExponent e).text = 'e' :: exponentText e := by
  simp [PrintedExponent.text, PrintedExponent.letter, PrintedExponent.sign, printedExponent,
    exponentText]

theorem isPrintedSize_scientific (h : d.Proper) (keepPoint : Bool) :
    IsPrintedSize false (d.scientific keepPoint) := by
  have hne : d.digits.take 1 ≠ [] := by simp [h.ne_nil]
  have hsmall : ∀ e ∈ some (printedExponent d.exponent), e.capital = false := by
    rintro e ⟨⟩
    rfl
  rw [scientific, ← text_printedExponent]
  exact isPrintedSize_pointed_append keepPoint (some (printedExponent d.exponent)) hne
    (fun c hc => h.isDigit c (List.mem_of_mem_take hc))
    (fun c hc => h.isDigit c (List.mem_of_mem_drop hc)) hsmall

end Proper

theorem isPrintedSize_general (keepZeros : Bool) (num den : Nat) {count : Nat} (h : 0 < count) :
    IsPrintedSize false (general keepZeros num den count) := by
  have hrounded := proper_leading num den h
  rw [general]
  have hproper : (if keepZeros then leading num den count
      else (leading num den count).trimmed).Proper := by
    split
    · exact hrounded
    · exact hrounded.trimmed
  split
  · exact hproper.isPrintedSize_scientific _
  · exact hproper.isPrintedSize_positional _

end Decimal

namespace Format

/-- The conversion is one for real numbers. -/
def Directive.IsReal (d : Directive) : Prop :=
  d.conversion ∈ ['e', 'E', 'f', 'F', 'g', 'G']

/-- The conversion prints a capital exponent, if any. -/
def Directive.capitals (d : Directive) : Bool :=
  d.conversion == 'E' || d.conversion == 'G'

variable {d : Directive}

/-- A size behind a minus sign or behind nothing. -/
theorem Field.printed {f : Field} {negative capital : Bool}
    (hsign : f.sign = if negative then ['-'] else []) (hmark : f.mark = [])
    (hbody : IsPrintedSize capital f.body) :
    ∃ n : PrintedNumeral, f.sign ++ f.mark ++ f.body = n.text ∧
      ∀ e ∈ n.exponent, e.capital = capital := by
  obtain ⟨n, hnegative, hcapital, hbody⟩ := hbody
  refine ⟨n.signed negative, ?_, hcapital⟩
  rw [n.text_signed hnegative, hsign, hmark, hbody, List.append_nil]

theorem Field.printed_upper {f : Field} {negative : Bool}
    (hsign : f.sign = if negative then ['-'] else []) (hmark : f.mark = [])
    (hbody : IsPrintedSize false f.body) :
    ∃ n : PrintedNumeral, f.upper.sign ++ f.upper.mark ++ f.upper.body = n.text ∧
      ∀ e ∈ n.exponent, e.capital = true :=
  Field.printed (f := f.upper) hsign (congrArg (List.map Char.toUpper) hmark) hbody.upper

/-- A conversion for real numbers prints a numeral, with a minus sign if with any. -/
theorem Directive.field_printed (h : d.IsReal) (hplus : d.plus = false)
    (hblank : d.blank = false) (x : Float) :
    ∃ field, d.field (.real x) = .ok field ∧ ∃ n : PrintedNumeral,
      field.sign ++ field.mark ++ field.body = n.text ∧
        ∀ e ∈ n.exponent, e.capital = d.capitals := by
  have hsign : ∀ write, (realField d write x).sign =
      if (Binary.ofFloat x).negative then ['-'] else [] := fun _ => by
    rw [realField, signOf, hplus, hblank]
    rfl
  have hexponential (keep : Bool) (num den places : Nat) :
      IsPrintedSize false ((Decimal.leading num den (places + 1)).scientific keep) :=
    (Decimal.proper_leading num den places.succ_pos).isPrintedSize_scientific keep
  have hfixed (capital keep : Bool) (num den places : Nat) :
      IsPrintedSize capital (Decimal.fixed keep num den places) :=
    Decimal.isPrintedSize_fixed keep num den places
  have hgeneral (keep : Bool) (num den places : Nat) :
      IsPrintedSize false (Decimal.general keep num den (max places 1)) :=
    Decimal.isPrintedSize_general keep num den (Nat.le_max_right places 1)
  rw [capitals]
  simp only [IsReal, List.mem_cons, List.not_mem_nil, or_false] at h
  rcases h with h | h | h | h | h | h <;> rw [field, h]
  · exact ⟨_, rfl, Field.printed (hsign _) rfl (hexponential _ _ _ _)⟩
  · exact ⟨_, rfl, Field.printed_upper (hsign _) rfl (hexponential _ _ _ _)⟩
  · exact ⟨_, rfl, Field.printed (hsign _) rfl (hfixed _ _ _ _ _)⟩
  · exact ⟨_, rfl, Field.printed (hsign _) rfl (hfixed _ _ _ _ _)⟩
  · exact ⟨_, rfl, Field.printed (hsign _) rfl (hgeneral _ _ _ _)⟩
  · exact ⟨_, rfl, Field.printed_upper (hsign _) rfl (hgeneral _ _ _ _)⟩

end Format

end Reckoner
