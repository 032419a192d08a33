import Reckoner.Proofs.Phrase.Words

/-!
# Texts set apart

Neither a numeral nor the word for a unit has a blank or a colon in it. So what
comes behind one of these makes no difference to how the text in front of it is
taken (`Text.Apart`): it begins with the same numeral and with the same word, and
what is left of it is left in front of the rest. A literal that is read in full
is read alike in front of a blank (`Quantity.readLiteral_append`).
-/

namespace Reckoner

namespace Text

/-- The text ends here, or a blank or a colon follows. -/
def Apart (behind : List Char) : Prop :=
  ∀ c ∈ behind.head?, c ∈ ':' :: blanks

variable {text behind : List Char}

theorem AtBlank.apart (h : AtBlank behind) : Apart behind :=
  h.forall_head? fun _ => List.mem_cons_of_mem _

theorem Apart.forall_head? (h : Apart behind) {p : Char → Prop} (hp : ∀ c ∈ ':' :: blanks, p c) :
    ∀ c ∈ behind.head?, p c := fun c hc =>
  hp c (h c hc)

theorem Apart.forall_head?_of_all (h : Apart behind) {p : Char → Prop} [DecidablePred p]
    (hp : ((':' :: blanks).all fun c => p c) = true) : ∀ c ∈ behind.head?, p c :=
  h.forall_head? (List.all_iff_forall_prop.1 hp)

/-! ## Runs -/

/-- A run ends in front of a character that does not go on with it. -/
theorem span_append {p : Char → Bool} (h : ∀ c ∈ behind.head?, p c = false) :
    (text ++ behind).takeWhile p = text.takeWhile p ∧
      (text ++ behind).dropWhile p = text.dropWhile p ++ behind := by
  induction text with
  | nil =>
    obtain - | ⟨c, rest⟩ := behind
    · exact ⟨rfl, rfl⟩
    · have hc := h c rfl
      simp [hc]
  | cons c text ih =>
    cases hc : p c with
    | true => simp [hc, ih]
    | false => simp [hc]

section

variable (hbehind : Apart behind)
include hbehind

theorem digits_append :
    (text ++ behind).takeWhile Char.isDigit = text.takeWhile Char.isDigit ∧
      (text ++ behind).dropWhile Char.isDigit = text.dropWhile Char.isDigit ++ behind :=
  span_append (hbehind.forall_head?_of_all (by decide))

theorem startsDigit_append : startsDigit (text ++ behind) = startsDigit text := by
  obtain - | ⟨c, text⟩ := text
  · obtain - | ⟨c, rest⟩ := behind
    · rfl
    · exact hbehind.forall_head?_of_all (p := fun c => c.isDigit = false) (by decide) c rfl
  · rfl

theorem startsLetter_append : startsLetter (text ++ behind) = startsLetter text := by
  obtain - | ⟨c, text⟩ := text
  · obtain - | ⟨c, rest⟩ := behind
    · rfl
    · exact hbehind.forall_head?_of_all (p := fun c => c.isAlpha = false) (by decide) c rfl
  · rfl

theorem startsNumber_apart : startsNumber (text ++ behind) = startsNumber text := by
  obtain - | ⟨c, text⟩ := text
  · obtain - | ⟨c, rest⟩ := behind
    · rfl
    · have hc := hbehind.forall_head?_of_all
        (p := fun c => (c.isDigit || (c == '-' || c == '.')) = false) (by decide) c rfl
      obtain ⟨hdigit, hsign⟩ := Bool.or_eq_false_iff.1 hc
      rw [List.nil_append, startsNumber, startsNumber, hdigit, hsign]
      rfl
  · rw [List.cons_append, startsNumber, startsNumber, startsDigit_append hbehind]

theorem startsHex_append : startsHex (text ++ behind) = startsHex text := by
  obtain - | ⟨c, rest⟩ := behind
  · rw [List.append_nil]
  · obtain ⟨hzero, hx, hhex⟩ := hbehind.forall_head?_of_all
      (p := fun c => (c == '0') = false ∧ (c == 'x' || c == 'X') = false ∧ isHexDigit c = false)
      (by decide) c rfl
    -- The character behind the text is none of the three that a numeral begins with.
    obtain - | ⟨z, text⟩ := text
    · obtain - | ⟨_, _ | ⟨_, _⟩⟩ := rest <;> simp [startsHex, hzero]
    · obtain - | ⟨x, text⟩ := text
      · obtain - | ⟨_, _⟩ := rest <;> simp [startsHex, hx]
      · obtain - | ⟨d, text⟩ := text
        · simp [startsHex, hhex]
        · rfl

end

theorem length_hexDigits_le (h : startsHex text = true) :
    2 + (hexDigits text).length ≤ text.length := by
  rw [hexDigits, if_pos h]
  obtain ⟨x, d, rest, -, -, rfl⟩ := exists_of_startsHex h
  have hle : ((d :: rest).takeWhile isHexDigit).length ≤ (d :: rest).length :=
    (List.takeWhile_sublist _).length_le
  simp only [List.drop_succ_cons, List.drop_zero, List.length_cons] at hle ⊢
  omega

theorem hexDigits_append (hbehind : Apart behind) (h : startsHex text = true) :
    hexDigits (text ++ behind) = hexDigits text := by
  rw [hexDigits, hexDigits, startsHex_append hbehind, if_pos h, if_pos h]
  obtain ⟨x, d, rest, -, -, rfl⟩ := exists_of_startsHex h
  exact (span_append (hbehind.forall_head?_of_all (by decide))).1

/-! ## Spellings -/

/-- What is left of a text behind a spelling is left in front of the rest. -/
theorem drop_spelling_append {s : String} (h : startsWith s text = true) :
    (text ++ behind).drop s.length = text.drop s.length ++ behind := by
  have hle : s.toList.length ≤ text.length := (startsWith_iff.1 h).length_le
  rw [String.length_toList] at hle
  exact List.drop_append_of_le_length hle

end Text

open Text

namespace Measure.Spelling

theorem colon_notMem : ∀ s ∈ table, ':' ∉ s.spelling.toList := by decide +kernel

theorem begins?_append {text behind : List Char} (hbehind : Apart behind) :
    begins? (text ++ behind) = begins? text :=
  longestMatch_append fun s hs =>
    hbehind.forall_head? (List.forall_mem_cons.2 ⟨colon_notMem s hs, blank_notMem s hs⟩)

end Measure.Spelling

namespace Numeral

variable {text behind : List Char} (hbehind : Apart behind)
include hbehind

theorem readSign_append :
    readSign (text ++ behind) = ((readSign text).1, (readSign text).2 ++ behind) := by
  obtain - | ⟨c, text⟩ := text
  · obtain - | ⟨c, rest⟩ := behind
    · rfl
    · have hc := hbehind.forall_head?_of_all (p := fun c => c ≠ '-') (by decide) c rfl
      simp [readSign, hc]
  · by_cases hc : c = '-'
    · subst hc
      rw [List.cons_append, readSign, readSign, startsDigit_append hbehind]
      split <;> rfl
    · simp [readSign, hc]

theorem readPlaces_append :
    readPlaces (text ++ behind) = ((readPlaces text).1, (readPlaces text).2 ++ behind) := by
  obtain - | ⟨c, text⟩ := text
  · obtain - | ⟨c, rest⟩ := behind
    · rfl
    · have hc := hbehind.forall_head?_of_all (p := fun c => c ≠ '.') (by decide) c rfl
      simp [readPlaces, hc]
  · by_cases hc : c = '.'
    · subst hc
      obtain ⟨htake, hdrop⟩ := @digits_append text _ hbehind
      rw [List.cons_append, readPlaces, readPlaces, htake, hdrop]
    · simp [readPlaces, hc]

/-- A numeral ends in front of what is set apart. -/
theorem read_append : read (text ++ behind) = ((read text).1, (read text).2 ++ behind) := by
  obtain ⟨htake, hdrop⟩ := @digits_append (readSign text).2 _ hbehind
  simp only [read, readSign_append hbehind, htake, hdrop, readPlaces_append hbehind]

end Numeral

/-! ## Literals in front of a blank -/

namespace Quantity

variable {text behind rest : List Char} {q q' : Quantity}

/-- A single colon that no format follows is followed by a unit. -/
theorem readSuffixPart_colon (q : Quantity) {c : Char} (hc : c ≠ ':') (hc' : c ≠ '%') :
    q.readSuffixPart (':' :: c :: rest) =
      (do Scan.drop 1; return (← q.readMeasure, true) : Scan (Quantity × Bool))
        (':' :: c :: rest) := by
  refine (bind_of_ok (y := get) rfl).trans (congrFun ?_ (':' :: c :: rest))
  split
  · rename_i heq
    cases heq
  · rename_i heq
    exact absurd (List.cons.inj (List.cons.inj heq).2).1 hc
  · rename_i heq
    exact absurd (List.cons.inj (List.cons.inj heq).2).1 hc'
  · rfl
  · rename_i hother
    exact absurd rfl (hother _)

theorem readMeasure_append (hbehind : Apart behind) (h : q.readMeasure text = .ok q' rest) :
    q.readMeasure (text ++ behind) = .ok q' (rest ++ behind) := by
  rw [readMeasure] at h ⊢
  rw [bind_of_ok (y := get) rfl] at h ⊢
  rw [Measure.Spelling.begins?_append hbehind]
  cases hbegins : Measure.Spelling.begins? text with
  | none =>
    rw [hbegins] at h
    cases h
  | some s =>
    rw [hbegins] at h
    cases h
    exact congrArg (EStateM.Result.ok _) (drop_spelling_append (startsWith_of_longestMatch hbegins))

variable (hbehind : AtBlank behind)
include hbehind

theorem readFormat_append (h : q.readFormat text = .ok q' rest) :
    q.readFormat (text ++ behind) = .ok q' (rest ++ behind) := by
  have htoken : token (text ++ behind) = token text :=
    (span_append (hbehind.forall_head?_of_all (by decide))).1
  cases h
  have hle : (token text).length ≤ text.length := (List.takeWhile_sublist _).length_le
  change EStateM.Result.ok { q with format := String.ofList (token (text ++ behind)) }
    ((text ++ behind).drop (token (text ++ behind)).length) = _
  rw [htoken, List.drop_append_of_le_length hle]

section

variable {part : Quantity × Bool}

/-- Behind a colon, a format ends in front of the blank, and so does a unit. -/
theorem readSuffixPart_colon_append {c : Char}
    (h : q.readSuffixPart (':' :: c :: text) = .ok part rest) :
    q.readSuffixPart (':' :: c :: (text ++ behind)) = .ok part (rest ++ behind) := by
  by_cases hc : c = ':'
  · subst hc
    cases h
    rfl
  by_cases hc' : c = '%'
  · subst hc'
    obtain ⟨q', rest', hformat⟩ : ∃ q' rest', q.readFormat ('%' :: text) = .ok q' rest' :=
      ⟨_, _, rfl⟩
    have happend := readFormat_append hbehind hformat
    have hpart : q.readSuffixPart (':' :: '%' :: text) = .ok (q', false) rest' :=
      bind_of_ok (f := fun q => pure (q, false)) hformat
    rw [hpart] at h
    cases h
    exact bind_of_ok (f := fun q => pure (q, false)) happend
  · rw [readSuffixPart_colon q hc hc'] at h
    rw [readSuffixPart_colon q hc hc']
    change (q.readMeasure >>= fun q => pure (q, true)) (c :: text) = _ at h
    cases hmeasure : q.readMeasure (c :: text) with
    | error f rest =>
      rw [bind_of_error hmeasure] at h
      cases h
    | ok q' rest =>
      rw [bind_of_ok hmeasure] at h
      cases h
      exact bind_of_ok (readMeasure_append hbehind.apart hmeasure)

/-- So does a unit right behind the number. -/
theorem readSuffixPart_cons_append {c : Char} (hc : c ≠ ':')
    (h : q.readSuffixPart (c :: text) = .ok part rest) :
    q.readSuffixPart (c :: (text ++ behind)) = .ok part (rest ++ behind) := by
  rw [readSuffixPart_cons q hc] at h
  rw [readSuffixPart_cons q hc, ← List.cons_append, Measure.Spelling.begins?_append hbehind.apart]
  cases hbegins : Measure.Spelling.begins? (c :: text) with
  | none =>
    rw [hbegins] at h
    cases h
    rfl
  | some s =>
    have hdrop := @drop_spelling_append _ behind _ (startsWith_of_longestMatch hbegins)
    rw [hbegins] at h
    dsimp only at h ⊢
    rw [hdrop, startsLetter_append hbehind.apart]
    split at h
    · rename_i hletter
      cases h
      rw [if_pos hletter]
      rfl
    · rename_i hletter
      cases h
      rw [if_neg hletter]
      exact congrArg (EStateM.Result.ok _) hdrop

theorem readSuffixPart_append (h : q.readSuffixPart text = .ok part rest) :
    q.readSuffixPart (text ++ behind) = .ok part (rest ++ behind) := by
  obtain - | ⟨c, text⟩ := text
  · cases h
    exact readSuffixPart_atBlank q hbehind
  by_cases hc : c = ':'
  · subst hc
    obtain - | ⟨d, text⟩ := text
    · cases h
    · exact readSuffixPart_colon_append hbehind h
  · exact readSuffixPart_cons_append hbehind hc h

end

theorem readSuffix_append {steps steps' : Nat} (hsteps : text.length ≤ steps)
    (hsteps' : (text ++ behind).length ≤ steps') (h : q.readSuffix steps text = .ok q' rest) :
    q.readSuffix steps' (text ++ behind) = .ok q' (rest ++ behind) := by
  induction steps generalizing q text steps' with
  | zero =>
    obtain rfl := List.length_eq_zero_iff.1 (Nat.le_zero.1 hsteps)
    cases h
    exact (readSuffix_eq_of_le _ hsteps' (Nat.le_refl _)).trans (readSuffixes_atBlank _ hbehind)
  | succ steps ih =>
    rw [readSuffix_eq_of_le q hsteps' (Nat.le_succ _)]
    cases hpart : q.readSuffixPart text with
    | error f rest =>
      rw [readSuffix, bind_of_error hpart] at h
      cases h
    | ok part rest =>
      rw [readSuffix, bind_of_ok hpart] at h
      refine (bind_of_ok (readSuffixPart_append hbehind hpart)).trans ?_
      obtain ⟨q, more⟩ := part
      cases more with
      | false =>
        cases h
        rfl
      | true =>
        have hlt : rest.length < text.length := (((ends_readSuffixPart _ text).of_ok hpart).2 rfl).2
        refine ih (by omega) ?_ h
        rw [List.length_append, List.length_append]
        omega

variable [DigitLimit]

/-- A literal is read alike in front of a blank. -/
theorem readLiteral_append (htext : AtToken text) (h : readLiteral text = .ok q rest) :
    readLiteral (text ++ behind) = .ok q (rest ++ behind) := by
  have hskip : Scan.skipBlanks text = .ok ⟨⟩ text :=
    congrArg (EStateM.Result.ok PUnit.unit) htext.skipBlanks_eq
  rw [readLiteral, bind_of_ok hskip, bind_of_ok (y := get) rfl] at h
  refine (bind_of_ok (skipBlanks_token htext behind)).trans ((bind_of_ok (y := get) rfl).trans ?_)
  rw [startsHex_append hbehind.apart, startsNumber_apart hbehind.apart]
  split at h
  · -- Two characters and the digits are taken off the text.
    rename_i hhex
    cases h
    rw [if_pos hhex, hexDigits_append hbehind.apart hhex]
    exact congrArg (EStateM.Result.ok _)
      (List.drop_append_of_le_length (length_hexDigits_le hhex))
  · rename_i hhex
    rw [if_neg hhex]
    split at h
    · cases h
    · rename_i hnumber
      rw [if_neg hnumber, Numeral.read_append hbehind.apart]
      -- The numeral is taken alike, and was not too long.
      replace h : (takeNumeral (Numeral.read text).1 >>= readSuffix (Numeral.read text).2.length)
        (Numeral.read text).2 = .ok q rest := h
      change (takeNumeral (Numeral.read text).1 >>=
        readSuffix ((Numeral.read text).2 ++ behind).length) ((Numeral.read text).2 ++ behind) = _
      have hfits := fits_of_takeNumeral_bind h
      rw [takeNumeral_bind hfits] at h ⊢
      exact readSuffix_append hbehind (Nat.le_refl _) (Nat.le_refl _) h

end Quantity

end Reckoner
