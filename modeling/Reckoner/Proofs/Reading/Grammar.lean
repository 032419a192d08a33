import Reckoner.Proofs.Guarded.Literal
import Reckoner.Proofs.Reading.Apart
import Reckoner.Proofs.Reading.Hexadecimal

/-!
# The grammar of numerals

A numeral is decimal (`Text.IsDecimal`) or hexadecimal (`Text.IsHexadecimal`). The first
characters of a text tell whether it begins with one (`Numeral.startsNumber_iff`,
`HexNumeral.startsHex_iff`), and the longest one that it begins with is read: reading passes
all of any numeral that is there (`Numeral.read_passes`), and what it has passed is one
(`Numeral.exists_longest_read`).

A text that begins with no numeral is refused where it stands. One that begins with a decimal
numeral can still be refused, but only behind the numeral, for want of a unit; and it interrupts
reading there if it is that of a whole number with too many digits
(`Quantity.readLiteral_grammar`).
-/

namespace Reckoner

open Text

namespace Text

/-! ## Longest heads -/

/-- The text is `head` with `behind` following, and begins with nothing longer that has the
    property. -/
structure Longest (P : List Char → Prop) (head behind text : List Char) : Prop where
  holds : P head
  append_eq : head ++ behind = text
  length_le : ∀ other, P other → other <+: text → other.length ≤ head.length

/-- The text begins with one that has the property. -/
def Begins (P : List Char → Prop) (text : List Char) : Prop :=
  ∃ head, P head ∧ head <+: text

section

variable {P : List Char → Prop} {head behind text : List Char}

theorem drop_length_takeWhile (p : Char → Bool) (text : List Char) :
    text.drop (text.takeWhile p).length = text.dropWhile p := by
  calc text.drop (text.takeWhile p).length
      = (text.takeWhile p ++ text.dropWhile p).drop (text.takeWhile p).length := by
        rw [List.takeWhile_append_dropWhile]
    _ = text.dropWhile p := List.drop_left

/-- What leaves no more behind than any other is the longest. -/
theorem longest_of_le (holds : P head) (happend : head ++ behind = text)
    (hle : ∀ other rest, P other → other ++ rest = text → behind.length ≤ rest.length) :
    Longest P head behind text where
  holds := holds
  append_eq := happend
  length_le other hother hprefix := by
    obtain ⟨rest, hrest⟩ := hprefix
    have hlength := congrArg List.length (happend.trans hrest.symm)
    have hbehind := hle other rest hother hrest
    rw [List.length_append, List.length_append] at hlength
    omega

theorem Longest.begins (h : Longest P head behind text) : Begins P text :=
  ⟨head, h.holds, behind, h.append_eq⟩

end

/-! ## Decimal literals -/

/-- A decimal literal as it is written: digits, with a minus sign in front of them or
    without, and with a point and places behind them or without; or a point and
    digits. -/
inductive IsDecimal : List Char → Prop
  | digits {n : Numeral} : n.whole ≠ [] → (∀ c ∈ n.whole, c.isDigit = true) →
    (∀ c ∈ n.places.getD [], c.isDigit = true) → IsDecimal n.text
  | point {places : List Char} : places ≠ [] → (∀ c ∈ places, c.isDigit = true) →
    IsDecimal ('.' :: places)

/-- A decimal literal with a zero in front of a leading point. -/
def completed : List Char → List Char
  | '.' :: places => '0' :: '.' :: places
  | text => text

namespace IsDecimal

variable {text : List Char}

theorem startsNumber_eq (h : IsDecimal text) : startsNumber text = true := by
  cases h with
  | @digits n hne hwhole hplaces =>
    exact List.append_nil n.text ▸ Numeral.startsNumber_text hne hwhole []
  | @point places hne hplaces =>
    obtain ⟨c, places, rfl⟩ := List.exists_cons_of_ne_nil hne
    simp [startsNumber, startsDigit, hplaces c List.mem_cons_self]

theorem atToken (h : IsDecimal text) : AtToken text :=
  atToken_of_startsNumber h.startsNumber_eq

end IsDecimal

end Text

namespace Numeral

variable {head text : List Char} {n : Numeral}

/-- Reading passes all of a numeral that the text begins with. -/
theorem read_passes (h : IsDecimal head) (behind : List Char) :
    (read (head ++ behind)).2.length ≤ behind.length := by
  have hpoint (places : List Char) (hplaces : ∀ c ∈ places, c.isDigit = true) :
      (readPlaces ('.' :: (places ++ behind))).2.length ≤ behind.length := by
    simp only [readPlaces]
    rw [List.dropWhile_append_of_pos hplaces]
    exact (List.dropWhile_suffix _).length_le
  cases h with
  | @digits n hne hwhole hdigits =>
    obtain ⟨negative, whole, places⟩ := n
    obtain ⟨c, digits, rfl⟩ := List.exists_cons_of_ne_nil hne
    rw [text_eq hne, List.append_assoc, List.append_assoc]
    dsimp only at hwhole hdigits ⊢
    rw [List.cons_append, read, readSign_text negative (hwhole c List.mem_cons_self)]
    dsimp only
    rw [← List.cons_append, List.dropWhile_append_of_pos hwhole]
    cases places with
    | none => exact ((readPlaces_suffix _).trans (List.dropWhile_suffix _)).length_le
    | some places => exact hpoint places hdigits
  | @point places hne hdigits => exact hpoint places hdigits

theorem append_readSign (text : List Char) :
    (if (readSign text).1 then ['-'] else []) ++ (readSign text).2 = text := by
  rw [readSign.eq_def]
  split
  · split <;> rfl
  · rfl

theorem append_readPlaces (text : List Char) :
    ((readPlaces text).1.map fun p => '.' :: p).getD [] ++ (readPlaces text).2 = text := by
  rw [readPlaces.eq_def]
  split
  · simp
  · rfl

/-- A numeral with digits before any point is written at the head of what it is read from. -/
theorem text_append_read (h : (read text).1.whole ≠ []) :
    (read text).1.text ++ (read text).2 = text := by
  let size := (readSign text).2
  let tail := size.dropWhile Char.isDigit
  calc (read text).1.text ++ (read text).2
      = (if (readSign text).1 then ['-'] else []) ++ (size.takeWhile Char.isDigit ++
          (((readPlaces tail).1.map fun p => '.' :: p).getD [] ++ (readPlaces tail).2)) := by
        rw [text_eq h, List.append_assoc, List.append_assoc]
        rfl
    _ = (if (readSign text).1 then ['-'] else []) ++ size := by
        rw [append_readPlaces, List.takeWhile_append_dropWhile]
    _ = text := append_readSign text

theorem completed_text (hne : n.whole ≠ []) (hwhole : ∀ c ∈ n.whole, c.isDigit = true) :
    completed n.text = n.text := by
  obtain ⟨c, digits, hdigits⟩ := List.exists_cons_of_ne_nil hne
  have hc : c ≠ '.' := by
    rintro rfl
    cases hwhole '.' (hdigits ▸ List.mem_cons_self)
  rw [text_eq hne, hdigits]
  cases n.negative with
  | true => rfl
  | false => simp [completed, hc]

/-- What is read is the longest numeral that the text begins with, a zero put in front of a
    leading point. -/
theorem exists_longest_read (h : startsNumber text = true) :
    ∃ head, Longest IsDecimal head (read text).2 text ∧ completed head = (read text).1.text := by
  have hlongest {head : List Char} (hhead : IsDecimal head)
      (happend : head ++ (read text).2 = text) : Longest IsDecimal head (read text).2 text :=
    longest_of_le hhead happend fun other rest hother hrest => hrest ▸ read_passes hother rest
  rcases Guarded.beginsNumeral_readSign h with hdigit | ⟨hsign, rest, hpoint⟩
  · obtain ⟨c, digits, -, hdigits⟩ := Guarded.takeWhile_of_startsDigit hdigit
    have hne : (readSign text).2.takeWhile Char.isDigit ≠ [] := hdigits ▸ List.cons_ne_nil c digits
    have hwhole : ∀ c ∈ (read text).1.whole, c.isDigit = true := Guarded.isDigit_of_mem_whole
    have hplaces : ∀ c ∈ (read text).1.places.getD [], c.isDigit = true := by
      cases hplaces : (read text).1.places with
      | none => exact List.forall_mem_nil _
      | some places => exact Guarded.isDigit_of_mem_places hplaces
    exact ⟨_, hlongest (.digits hne hwhole hplaces) (text_append_read hne),
      completed_text hne hwhole⟩
  · -- Without a digit in front, it is a point that the text begins with.
    obtain rfl : '.' :: rest = text := by
      have htext := append_readSign text
      rwa [hsign, hpoint] at htext
    have hdigit : startsDigit rest = true := by simpa [startsNumber] using h
    obtain ⟨c, digits, -, hdigits⟩ := Guarded.takeWhile_of_startsDigit hdigit
    have hdecimal : IsDecimal ('.' :: rest.takeWhile Char.isDigit) :=
      .point (hdigits ▸ List.cons_ne_nil c digits) fun _ => List.mem_takeWhile_imp
    exact ⟨_, hlongest hdecimal (congrArg ('.' :: ·) List.takeWhile_append_dropWhile), rfl⟩

theorem startsNumber_iff : startsNumber text = true ↔ Begins IsDecimal text := by
  refine ⟨fun h => ?_, ?_⟩
  · obtain ⟨head, hlongest, -⟩ := exists_longest_read h
    exact hlongest.begins
  · rintro ⟨head, hhead, behind, rfl⟩
    have hstarts := hhead.startsNumber_eq
    obtain - | ⟨c, rest⟩ := head
    · cases hstarts
    obtain - | ⟨d, rest⟩ := rest
    · have hc : c.isDigit = true := by simpa [startsNumber, startsDigit] using hstarts
      simp [startsNumber, hc]
    · exact hstarts

end Numeral

/-! ## Hexadecimal literals -/

/-- A hexadecimal literal as it is written. -/
def Text.IsHexadecimal (text : List Char) : Prop :=
  ∃ h : HexNumeral, h.text = text

namespace HexNumeral

variable {text : List Char}

/-- The digits are those up to the first character that is none. -/
theorem exists_longest (h : startsHex text = true) :
    ∃ numeral : HexNumeral, hexDigits text = numeral.digits ∧
      Longest IsHexadecimal numeral.text (text.drop (2 + numeral.digits.length)) text := by
  have hdigits : hexDigits text = (text.drop 2).takeWhile isHexDigit := if_pos h
  obtain ⟨x, d, rest, hx, hd, rfl⟩ := exists_of_startsHex h
  obtain ⟨capital, rfl⟩ : ∃ capital : Bool, x = if capital then 'X' else 'x' := by
    rcases hx with rfl | rfl
    · exact ⟨false, rfl⟩
    · exact ⟨true, rfl⟩
  let numeral : HexNumeral :=
    ⟨capital, (d :: rest).takeWhile isHexDigit, by simp [hd], fun _ => List.mem_takeWhile_imp⟩
  refine ⟨numeral, hdigits, ?_⟩
  rw [Nat.add_comm, List.drop_succ_cons, List.drop_succ_cons, drop_length_takeWhile]
  refine longest_of_le ⟨numeral, rfl⟩ ?_ ?_
  · exact congrArg ('0' :: _ :: ·) List.takeWhile_append_dropWhile
  · rintro _ behind ⟨other, rfl⟩ hother
    obtain hrest : other.digits ++ behind = d :: rest := (List.cons.inj (List.cons.inj hother).2).2
    rw [← hrest, List.dropWhile_append_of_pos other.isHexDigit_digits]
    exact (List.dropWhile_suffix _).length_le

theorem startsHex_iff : startsHex text = true ↔ Begins IsHexadecimal text := by
  refine ⟨fun h => ?_, ?_⟩
  · obtain ⟨numeral, -, hlongest⟩ := exists_longest h
    exact hlongest.begins
  · rintro ⟨_, ⟨numeral, rfl⟩, behind, rfl⟩
    have hstarts := numeral.startsHex_text
    obtain ⟨x, d, rest, -, -, htext⟩ := exists_of_startsHex hstarts
    rw [htext] at hstarts ⊢
    exact hstarts

end HexNumeral

namespace Text.IsDecimal

variable {text : List Char}

theorem read_eq_nil (h : IsDecimal text) : (Numeral.read text).2 = [] := by
  have hpasses := Numeral.read_passes h []
  rw [List.append_nil] at hpasses
  exact List.eq_nil_of_length_eq_zero (Nat.le_zero.1 hpasses)

/-- A decimal literal has no mark of a hexadecimal one, at which reading it would stop. -/
theorem startsHex_eq (h : IsDecimal text) : startsHex text = false := by
  refine Bool.eq_false_iff.2 fun hhex => ?_
  have hrest := h.read_eq_nil
  obtain ⟨x, d, rest, rfl | rfl, -, rfl⟩ := exists_of_startsHex hhex <;> cases hrest

/-- In front of a blank it is taken in full, and is a number without a unit, unless it has
    too many digits. -/
theorem readLiteral_append [DigitLimit] (h : IsDecimal text) {behind : List Char}
    (hbehind : AtBlank behind) :
    Quantity.readLiteral (text ++ behind) =
      match (Numeral.read text).1.fault? with
      | none => .ok (.ofNumeral (Numeral.read text).1) behind
      | some f => .error (.fault f) behind := by
  have hskip := (h.atToken.append behind).skipBlanks_eq
  have hhex : startsHex (skipBlanks (text ++ behind)) = false := by
    rw [hskip, startsHex_append hbehind.apart, h.startsHex_eq]
  have hnumber : startsNumber (skipBlanks (text ++ behind)) = true := by
    rw [hskip, startsNumber_apart hbehind.apart, h.startsNumber_eq]
  rw [Quantity.readLiteral_of_startsNumber hhex hnumber, hskip,
    Numeral.read_append hbehind.apart, h.read_eq_nil, List.nil_append]
  cases hfault : (Numeral.read text).1.fault? with
  | none =>
    rw [Quantity.takeNumeral_bind hfault]
    exact Quantity.readSuffixes_atBlank _ hbehind
  | some f =>
    rw [Quantity.takeNumeral_bind_of_fault? hfault]
    rfl

end Text.IsDecimal

/-! ## What is read -/

namespace Quantity

/-- Behind the blanks, a hexadecimal numeral is read to its end, as the place of its value in
    the register. Otherwise a decimal one is read to its end, as its number, to which what
    follows can add units and a format, or be refused; neither changes the number. It is
    taken for its number unless it is that of a whole one with too many digits, which is a
    fault and interrupts reading behind it. Otherwise the text is refused, with nothing but
    the blanks read. No text is taken for a number that is not a numeral. -/
theorem readLiteral_grammar [DigitLimit] (text : List Char) :
    (Begins IsHexadecimal (skipBlanks text) → ∃ (h : HexNumeral) (behind : List Char),
      Longest IsHexadecimal h.text behind (skipBlanks text) ∧
        readLiteral text = .ok (ofHex h.digits) behind ∧
        (ofHex h.digits).magnitude = .ofInt h.value) ∧
    (¬Begins IsHexadecimal (skipBlanks text) → Begins IsDecimal (skipBlanks text) →
      ∃ head behind, Longest IsDecimal head behind (skipBlanks text) ∧
        match Guarded.numberOf (completed head) with
        | .ok m =>
          readLiteral text =
            readSuffixes { magnitude := m, literal := String.ofList (completed head) } behind ∧
          Ends readLiteral text (fun q rest => q.magnitude = m ∧ rest <:+ behind)
            (fun snag rest => snag.kind? = some .unknownUnit ∧ rest <:+ behind)
        | .error (.fault f) =>
          f.ExceedsLimit ∧ readLiteral text = .error (.fault f) behind
        | .error .noNumeral => False) ∧
    (¬Begins IsHexadecimal (skipBlanks text) → ¬Begins IsDecimal (skipBlanks text) →
      ∃ f, readLiteral text = .error (.failure f) (skipBlanks text) ∧
        f.kind = .malformedNumber) ∧
    ∀ alarm, Guarded.readLiteral alarm text = readLiteral text := by
  rw [← HexNumeral.startsHex_iff, ← Numeral.startsNumber_iff, Bool.not_eq_true, Bool.not_eq_true]
  refine ⟨fun hhex => ?_, fun hhex hnumber => ?_, fun hhex hnumber => ?_, fun alarm => ?_⟩
  · obtain ⟨numeral, hdigits, hlongest⟩ := HexNumeral.exists_longest hhex
    exact ⟨numeral, _, hlongest, hdigits ▸ readLiteral_of_startsHex hhex, rfl⟩
  · obtain ⟨head, hlongest, hcompleted⟩ := Numeral.exists_longest_read hnumber
    have hread := readLiteral_of_startsNumber hhex hnumber
    refine ⟨head, _, hlongest, ?_⟩
    rw [hcompleted, Guarded.numberOf_read]
    cases hfault : (Numeral.read (skipBlanks text)).1.fault? with
    | some f =>
      rw [takeNumeral_bind_of_fault? hfault] at hread
      exact ⟨Numeral.exceedsLimit_of_fault? hfault, hread⟩
    | none =>
      rw [takeNumeral_bind hfault] at hread
      refine ⟨hread, ?_⟩
      rw [Ends, hread]
      exact (readSuffix_keeps _ _ _).and (moves_readSuffix _ _ _)
  · exact ⟨_, readLiteral_of_not_startsNumber hhex hnumber, rfl⟩
  · rw [Guarded.readLiteral_eq]

/-- Behind a blank, a point with a digit behind it, up to another point. -/
theorem readLiteral_points : ∃ head behind m, Longest IsDecimal head behind ".5.7".toList ∧
    Guarded.numberOf (completed head) = .ok m ∧
      Ends readLiteral " .5.7".toList (fun q rest => q.magnitude = m ∧ rest <:+ behind)
        (fun snag rest => snag.kind? = some .unknownUnit ∧ rest <:+ behind) := by
  have hskip : skipBlanks " .5.7".toList = ".5.7".toList := by decide
  have hhex : ¬Begins IsHexadecimal (skipBlanks " .5.7".toList) := by
    rw [← HexNumeral.startsHex_iff]
    decide
  have hdecimal : Begins IsDecimal (skipBlanks " .5.7".toList) := by
    rw [← Numeral.startsNumber_iff]
    decide
  obtain ⟨head, behind, hlongest, hread⟩ := (readLiteral_grammar " .5.7".toList).2.1 hhex hdecimal
  obtain ⟨q, rest, hok⟩ : ∃ q rest, readLiteral " .5.7".toList = .ok q rest := ⟨_, _, rfl⟩
  split at hread
  · rename_i m hnumber
    exact ⟨head, behind, m, hskip ▸ hlongest, hnumber, hread.2⟩
  · cases hok.symm.trans hread.2
  · cases hread

/-- With more digits than there usually may be, a numeral is read to its end, but not taken
    for its number. -/
theorem readLiteral_ones :
    readLiteral (List.replicate 4301 '1') = .error (.fault (.tooManyDigits 4300 4301)) [] := by
  rw [← Literal.text_ones 4300, ← List.append_nil (Literal.ones 4300).text]
  exact readLiteral_overlong _ Literal.fault?_ones_usual
    ((Literal.ones 4300).head_suffix (.inl rfl))

end Quantity

end Reckoner
