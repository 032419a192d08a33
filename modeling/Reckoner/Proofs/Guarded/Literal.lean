import Mathlib.Data.List.TakeWhile
import Reckoner.Literal
import Reckoner.Proofs.Guarded.Arithmetic
import Reckoner.Proofs.Phrase.Words

/-!
# Guarded numerals

A number is read in two steps: the characters of its numeral are collected one
by one, and what has been collected is then taken for a number, a real one if
there is a point in it. The second step is guarded here: it raises an alarm
where the text is no numeral (`wholeOf`, `realOf`, `hexOf`), and meets with a
fault where a whole number has too many digits. Reading literals in this way is
reading literals (`Guarded.readLiteral_eq`), whatever an alarm would lead to,
since a number is read only where a numeral begins.
-/

namespace Reckoner

open Text

namespace Guarded

/-! ## Collecting a numeral -/

/-- The text of a numeral without a digit yet: nothing, or a sign. -/
def isBare (written : List Char) : Bool :=
  written == [] || written == ['-']

/-- Collects digits, and a point among them, behind what is written already. -/
def collectFrom : (written : List Char) → (pointed : Bool) → List Char → List Char × List Char
  | written, _, [] => (written, [])
  | written, pointed, c :: rest =>
    if c.isDigit then collectFrom (written ++ [c]) pointed rest
    else if c == '.' && !pointed then
      collectFrom ((if isBare written then written ++ ['0'] else written) ++ ['.']) true rest
    else (written, c :: rest)

/-- Collects the numeral at the head of a text; a sign belongs to it in front of a
    digit. -/
def collect (text : List Char) : List Char × List Char :=
  if text.head? = some '-' && startsDigit text.tail then collectFrom ['-'] false text.tail
  else collectFrom [] false text

/-! ## Numerals as numbers -/

/-- What keeps a text from being taken for a number. -/
inductive NotTaken
  | noNumeral
  | fault (f : Fault)

/-- A text without the sign it may begin with. -/
def unsigned : List Char → Bool × List Char
  | '-' :: size => (true, size)
  | size => (false, size)

/-- The whole number that a text is the numeral of: digits, perhaps behind a
    sign, and no more of them than there may be. -/
def wholeOf [DigitLimit] (written : List Char) : Except NotTaken Int :=
  let (negative, size) := unsigned written
  if size.isEmpty || !size.all Char.isDigit then .error .noNumeral
  else
    match DigitLimit.most?.filter (· < size.length) with
    | some most => .error (.fault (.tooManyDigits most size.length))
    | none => .ok (if negative then -valueIn 10 size else valueIn 10 size)

/-- The real number that a text is the numeral of: digits, a point and perhaps
    more digits, perhaps behind a sign. -/
def realOf (written : List Char) : Except NotTaken Float :=
  let (negative, size) := unsigned written
  let whole := size.takeWhile Char.isDigit
  match size.dropWhile Char.isDigit with
  | '.' :: places =>
    if whole.isEmpty || !places.all Char.isDigit then .error .noNumeral
    else
      let size := Float.ofScientific (valueIn 10 (whole ++ places)) true places.length
      .ok (if negative then -size else size)
  | _ => .error .noNumeral

/-- The number that a text is the numeral of: a real one if there is a point in it, and
    otherwise the place of a whole one in the register. -/
def numberOf [DigitLimit] (written : List Char) : Except NotTaken Magnitude :=
  if '.' ∈ written then (realOf written).map .real else (wholeOf written).map .ofInt

/-- The number that hexadecimal digits stand for, if there are any. -/
def hexOf (digits : List Char) : Except NotTaken Int :=
  if digits.isEmpty || !digits.all isHexDigit then .error .noNumeral else .ok (valueIn 16 digits)

variable (alarm : Alarm Snag (List Char))

/-- The number of a numeral. -/
def number {α : Type} : Except NotTaken α → Scan α
  | .ok n => return n
  | .error .noNumeral => alarm α .noNumeral
  | .error (.fault f) => throw (.fault f)

/-- The magnitude of what has been collected. -/
def magnitude [DigitLimit] (written : List Char) : Scan Magnitude := do
  if '.' ∈ written then return .real (← number alarm (realOf written))
  else return .ofInt (← number alarm (wholeOf written))

/-- Reads a literal. -/
def readLiteral [DigitLimit] : Scan Quantity := do
  Scan.skipBlanks
  let text ← get
  if startsHex text then
    let digits := hexDigits text
    Scan.drop (2 + digits.length)
    return {
      magnitude := .ofInt (← number alarm (hexOf digits))
      format := Quantity.hexFormat
      literal := "0x" ++ String.ofList digits }
  else if !startsNumber text then throw (.failure (.notANumber (String.ofList text)))
  else
    let (written, rest) := collect text
    set rest
    Quantity.readSuffix rest.length
      { magnitude := ← magnitude alarm written, literal := String.ofList written }

/-! ## What is collected -/

/-- Digits are collected wherever they stand. -/
theorem collectFrom_digits (written : List Char) (pointed : Bool) (text : List Char) :
    collectFrom written pointed text =
      collectFrom (written ++ text.takeWhile Char.isDigit) pointed
        (text.dropWhile Char.isDigit) := by
  induction text generalizing written with
  | nil => rw [List.takeWhile_nil, List.dropWhile_nil, List.append_nil]
  | cons c rest ih =>
    by_cases hc : c.isDigit = true
    · rw [collectFrom, if_pos hc, ih, List.takeWhile_cons_of_pos hc, List.dropWhile_cons_of_pos hc,
        List.append_assoc]
      rfl
    · rw [List.takeWhile_cons_of_neg hc, List.dropWhile_cons_of_neg hc, List.append_nil]

theorem not_isDigit_of_dropWhile {text rest : List Char} {c : Char}
    (h : text.dropWhile Char.isDigit = c :: rest) : ¬c.isDigit = true := by
  have hhead := List.head?_dropWhile_not Char.isDigit text
  rw [h] at hhead
  exact Bool.eq_false_iff.1 hhead

/-- Behind a point, only digits are collected. -/
theorem collectFrom_pointed (written text : List Char) :
    collectFrom written true text =
      (written ++ text.takeWhile Char.isDigit, text.dropWhile Char.isDigit) := by
  rw [collectFrom_digits]
  cases hrest : text.dropWhile Char.isDigit with
  | nil => rfl
  | cons c rest =>
    rw [collectFrom, if_neg (not_isDigit_of_dropWhile hrest), if_neg (by simp)]

/-- What has been written before a point is given a digit if it has none. -/
def beforePoint (written : List Char) : List Char :=
  if isBare written then written ++ ['0'] else written

theorem collectFrom_eq (written text : List Char) :
    collectFrom written false text =
      (match (Numeral.readPlaces (text.dropWhile Char.isDigit)).1 with
        | some places => beforePoint (written ++ text.takeWhile Char.isDigit) ++ '.' :: places
        | none => written ++ text.takeWhile Char.isDigit,
      (Numeral.readPlaces (text.dropWhile Char.isDigit)).2) := by
  rw [collectFrom_digits]
  cases hrest : text.dropWhile Char.isDigit with
  | nil => rfl
  | cons c rest =>
    rw [collectFrom, if_neg (not_isDigit_of_dropWhile hrest)]
    split
    · rename_i hpoint
      obtain rfl : c = '.' := by simpa using hpoint
      rw [collectFrom_pointed, List.append_assoc]
      rfl
    · rename_i hpoint
      have hc : c ≠ '.' := by simpa using hpoint
      have hplaces : Numeral.readPlaces (c :: rest) = (none, c :: rest) := by
        rw [Numeral.readPlaces]
        intro rest' h
        exact hc (List.cons.inj h).1
      rw [hplaces]

/-- The numeral at the head of a text, given its sign. -/
def numeralOf (negative : Bool) (text : List Char) : Numeral where
  negative := negative
  whole := text.takeWhile Char.isDigit
  places := (Numeral.readPlaces (text.dropWhile Char.isDigit)).1

/-- There is a digit behind the sign, or a point where there is no sign. -/
def BeginsNumeral (negative : Bool) (text : List Char) : Prop :=
  startsDigit text = true ∨ negative = false ∧ ∃ rest, text = '.' :: rest

section

variable {negative : Bool} {text : List Char}

/-- With a digit before the point, no other one is written. -/
theorem beforePoint_of_digit {c : Char} (hc : c.isDigit = true) (rest : List Char) :
    beforePoint ((if negative then ['-'] else []) ++ c :: rest) =
      (if negative then ['-'] else []) ++ c :: rest := by
  have hsign : c ≠ '-' := by
    rintro rfl
    cases hc
  rw [beforePoint, if_neg]
  cases negative <;> simp [isBare, hsign]

theorem takeWhile_of_startsDigit (h : startsDigit text = true) :
    ∃ c rest, c.isDigit = true ∧ text.takeWhile Char.isDigit = c :: rest := by
  obtain - | ⟨c, rest⟩ := text
  · cases h
  · exact ⟨c, _, h, List.takeWhile_cons_of_pos h⟩

theorem collectFrom_text (h : BeginsNumeral negative text) :
    (collectFrom (if negative then ['-'] else []) false text).1 =
      (numeralOf negative text).text := by
  rw [collectFrom_eq]
  rcases h with h | ⟨rfl, rest, rfl⟩
  · -- There is a digit in front of a point, so none is written for it.
    obtain ⟨c, rest, hc, hwhole⟩ := takeWhile_of_startsDigit h
    have hne : (numeralOf negative text).whole ≠ [] := by simp [numeralOf, hwhole]
    rw [Numeral.text_eq hne]
    simp only [numeralOf, hwhole]
    cases (Numeral.readPlaces (text.dropWhile Char.isDigit)).1 with
    | none => simp
    | some places => simp [beforePoint_of_digit hc]
  · rfl

theorem collect_readSign (text : List Char) :
    collect text = collectFrom (if (Numeral.readSign text).1 then ['-'] else []) false
      (Numeral.readSign text).2 := by
  rw [collect]
  obtain - | ⟨c, rest⟩ := text
  · rfl
  · by_cases hc : c = '-'
    · subst hc
      cases hrest : startsDigit rest <;> simp [Numeral.readSign, hrest]
    · simp [Numeral.readSign, hc]

theorem beginsNumeral_readSign (h : startsNumber text = true) :
    BeginsNumeral (Numeral.readSign text).1 (Numeral.readSign text).2 := by
  obtain - | ⟨c, rest⟩ := text
  · cases h
  rcases Numeral.startsNumber_cons h with hc | rfl | ⟨rfl, hrest⟩
  · have hsign : Numeral.readSign (c :: rest) = (false, c :: rest) :=
      Numeral.readSign_text false hc rest
    rw [hsign]
    exact .inl hc
  · exact .inr ⟨rfl, rest, rfl⟩
  · rw [Numeral.readSign, if_pos hrest]
    exact .inl hrest

/-- What is collected is the text of the numeral that is read. -/
theorem collect_eq (h : startsNumber text = true) :
    collect text = ((Numeral.read text).1.text, (Numeral.read text).2) := by
  rw [collect_readSign]
  refine Prod.ext (collectFrom_text (beginsNumeral_readSign h)) ?_
  rw [collectFrom_eq]
  rfl

end

/-! ## What is collected as a number -/

theorem unsigned_cons (negative : Bool) {c : Char} (hc : c.isDigit = true) (rest : List Char) :
    unsigned (if negative then '-' :: c :: rest else c :: rest) = (negative, c :: rest) := by
  cases negative with
  | true => rfl
  | false =>
    rw [if_neg Bool.false_ne_true, unsigned]
    rintro size h
    rw [(List.cons.inj h).1] at hc
    cases hc

/-- A run of digits, with a sign in front of it, is a whole number, unless there are too
    many. -/
theorem wholeOf_eq [DigitLimit] (negative : Bool) {digits : List Char} (hne : digits ≠ [])
    (hdigits : ∀ c ∈ digits, c.isDigit = true) :
    wholeOf (if negative then '-' :: digits else digits) =
      match (⟨negative, digits, none⟩ : Numeral).fault? with
      | some f => .error (.fault f)
      | none => .ok (if negative then -(valueIn 10 digits : Int) else valueIn 10 digits) := by
  obtain ⟨c, rest, rfl⟩ := List.exists_cons_of_ne_nil hne
  have hall : (c :: rest).all Char.isDigit = true := List.all_eq_true.2 hdigits
  rw [wholeOf, unsigned_cons negative (hdigits c List.mem_cons_self), Numeral.fault?]
  simp only [hall]
  cases DigitLimit.most?.filter (· < (c :: rest).length) <;> rfl

/-- With a point and digits behind it, or none, it is a real number. -/
theorem realOf_eq (negative : Bool) {whole places : List Char} (hne : whole ≠ [])
    (hwhole : ∀ c ∈ whole, c.isDigit = true) (hplaces : ∀ c ∈ places, c.isDigit = true) :
    realOf (if negative then '-' :: (whole ++ '.' :: places) else whole ++ '.' :: places) =
      let size := Float.ofScientific (valueIn 10 (whole ++ places)) true places.length
      .ok (if negative then -size else size) := by
  have hpoint : ∀ c ∈ ('.' :: places).head?, c.isDigit = false := fun c hc => by cases hc; rfl
  obtain ⟨htake, hdrop⟩ := Numeral.span_digits hwhole hpoint
  obtain ⟨c, rest, rfl⟩ := List.exists_cons_of_ne_nil hne
  have hall : places.all Char.isDigit = true := List.all_eq_true.2 hplaces
  rw [realOf, List.cons_append, unsigned_cons negative (hwhole c List.mem_cons_self)]
  rw [List.cons_append] at htake hdrop
  simp only [htake, hdrop, hall]
  rfl

section

variable {negative : Bool} {text : List Char}

theorem isDigit_of_mem_whole : ∀ c ∈ (numeralOf negative text).whole, c.isDigit = true :=
  fun _ => List.mem_takeWhile_imp

theorem isDigit_of_mem_places {places : List Char}
    (h : (numeralOf negative text).places = some places) : ∀ c ∈ places, c.isDigit = true := by
  simp only [numeralOf, Numeral.readPlaces] at h
  split at h
  · cases h
    exact fun _ => List.mem_takeWhile_imp
  · cases h

end

theorem point_notMem (negative : Bool) {digits : List Char} (h : ∀ c ∈ digits, c.isDigit = true) :
    '.' ∉ if negative then '-' :: digits else digits := by
  have hpoint : '.' ∉ digits := fun hmem => absurd (h '.' hmem) (by decide)
  cases negative <;> simp [hpoint]

/-- The digit written where there is none does not count. -/
theorem valueIn_wholeDigits (n : Numeral) (places : List Char) :
    valueIn 10 (n.wholeDigits ++ places) = valueIn 10 (n.whole ++ places) := by
  rw [Numeral.wholeDigits]
  split
  · rename_i h
    rw [List.isEmpty_iff.1 h]
    rfl
  · rfl

theorem wholeDigits_spec {n : Numeral} (h : ∀ c ∈ n.whole, c.isDigit = true) :
    n.wholeDigits ≠ [] ∧ ∀ c ∈ n.wholeDigits, c.isDigit = true := by
  rw [Numeral.wholeDigits]
  split
  · exact ⟨List.cons_ne_nil _ _, fun c hc => by simp at hc; subst hc; rfl⟩
  · rename_i hne
    exact ⟨by simpa using hne, h⟩

theorem hexOf_eq {text : List Char} (h : startsHex text = true) :
    hexOf (hexDigits text) = .ok (valueIn 16 (hexDigits text) : Int) := by
  have hdigits : (hexDigits text).all isHexDigit = true := by
    rw [hexDigits, if_pos h]
    exact List.all_eq_true.2 fun _ => List.mem_takeWhile_imp
  have hne : (hexDigits text).isEmpty = false := by
    rw [hexDigits, if_pos h]
    obtain ⟨x, d, rest, -, hd, rfl⟩ := exists_of_startsHex h
    simp [hd]
  rw [hexOf, hdigits, hne]
  rfl

theorem number_map {α β : Type} {taken : Except NotTaken α} {f : α → β}
    (h : taken.map f ≠ .error .noNumeral) :
    (number alarm taken >>= fun n => pure (f n)) = number alarm (taken.map f) := by
  rcases taken with (_ | fault) | n
  · exact absurd rfl h
  · rfl
  · rfl

variable [DigitLimit]

/-- The digit written where there is none exceeds no limit. -/
theorem fault?_wholeDigits {n : Numeral} (hplaces : n.places = none) :
    (⟨n.negative, n.wholeDigits, none⟩ : Numeral).fault? = n.fault? := by
  obtain ⟨negative, whole, places⟩ := n
  obtain rfl : places = none := hplaces
  cases whole with
  | nil =>
    have hzero : (⟨negative, ['0'], none⟩ : Numeral).Fits :=
      Numeral.fits_of_length_le (Nat.le_add_left 1 _)
    have hnil : (⟨negative, [], none⟩ : Numeral).Fits := Numeral.fits_of_length_le (Nat.zero_le _)
    exact hzero.trans hnil.symm
  | cons c digits => rfl

/-- The text of a numeral is taken for its number, unless it has too many digits. -/
theorem numberOf_text {n : Numeral} (hwhole : ∀ c ∈ n.whole, c.isDigit = true)
    (hplaces : ∀ places, n.places = some places → ∀ c ∈ places, c.isDigit = true) :
    numberOf n.text =
      match n.fault? with
      | some f => .error (.fault f)
      | none => .ok n.magnitude := by
  obtain ⟨hne, hdigits⟩ := wholeDigits_spec hwhole
  rw [numberOf, Numeral.text, Numeral.magnitude]
  cases h : n.places with
  | none =>
    have hvalue := valueIn_wholeDigits n []
    rw [List.append_nil, List.append_nil] at hvalue
    dsimp only
    rw [if_neg (point_notMem n.negative hdigits), wholeOf_eq _ hne hdigits, hvalue,
      fault?_wholeDigits h]
    cases n.fault? <;> rfl
  | some places =>
    have hpoint : '.' ∈ if n.negative then '-' :: (n.wholeDigits ++ '.' :: places)
        else n.wholeDigits ++ '.' :: places := by
      split <;> simp
    have hfits : n.fault? = none := Numeral.fits_of_places h
    dsimp only
    rw [if_pos hpoint, realOf_eq _ hne hdigits (hplaces places h), valueIn_wholeDigits, hfits]
    rfl

/-- A numeral raises no alarm. -/
theorem magnitude_eq {written : List Char} (h : numberOf written ≠ .error .noNumeral) :
    magnitude alarm written = number alarm (numberOf written) := by
  rw [numberOf] at h ⊢
  rw [magnitude]
  split at h
  · rw [if_pos ‹_›, if_pos ‹_›]
    exact number_map alarm h
  · rw [if_neg ‹_›, if_neg ‹_›]
    exact number_map alarm h

/-- The numeral at the head of a text is written in digits. -/
theorem numberOf_read (text : List Char) :
    numberOf (Numeral.read text).1.text =
      match (Numeral.read text).1.fault? with
      | some f => .error (.fault f)
      | none => .ok (Numeral.read text).1.magnitude :=
  numberOf_text isDigit_of_mem_whole fun _ => isDigit_of_mem_places

/-- No literal raises an alarm. -/
theorem readLiteral_eq : Guarded.readLiteral alarm = Quantity.readLiteral := by
  rw [Guarded.readLiteral, Quantity.readLiteral]
  congr 1
  funext _
  refine congrArg (get >>= ·) (funext fun text => ?_)
  split
  · rename_i hhex
    dsimp only
    rw [hexOf_eq hhex]
    rfl
  · split
    · rfl
    · rename_i hnumber
      have hnumber : startsNumber text = true := by simpa using hnumber
      rw [collect_eq hnumber]
      dsimp only
      have hread := numberOf_read text
      rw [magnitude_eq alarm (by rw [hread]; split <;> nofun), hread, Quantity.takeNumeral]
      cases (Numeral.read text).1.fault? <;> rfl

end Guarded

end Reckoner
