import Mathlib.Data.Bool.AllAny
import Reckoner.Proofs.Phrase.Basic
import Reckoner.Proofs.Reading.Scanning

/-!
# Reading tokens

A token is read as what it is, whatever follows the blank behind it: no spelling
has a blank in it, so that the longest one a text begins with is looked for in
the token alone (`Text.longestMatch_token`).
-/

namespace Reckoner

namespace Text

/-- The blanks there are. -/
def blanks : List Char := [' ', '\t', '\n', '\x0b', '\x0c', '\x0d']

theorem mem_blanks {c : Char} (h : isBlank c = true) : c ∈ blanks := by
  simp only [isBlank, Bool.or_eq_true, Bool.and_eq_true, beq_iff_eq, decide_eq_true_eq] at h
  rcases h with rfl | ⟨hle, hle'⟩
  · exact List.mem_cons_self
  · have hcontrol : ∀ n < 14, 9 ≤ n → Char.ofNat n ∈ blanks := by decide
    have hlt : c.toNat < 14 := Nat.lt_succ_of_le hle'
    have hc := hcontrol c.toNat hlt hle
    rwa [Char.ofNat_toNat] at hc

/-- The text ends here, or a blank follows. -/
def AtBlank (text : List Char) : Prop :=
  text = [] ∨ ∃ c rest, isBlank c = true ∧ text = c :: rest

/-- The text begins with something else than a blank. -/
def AtToken (text : List Char) : Prop :=
  ∃ c rest, text = c :: rest ∧ isBlank c = false

variable {token behind : List Char}

theorem atBlank_cons (rest : List Char) : AtBlank (' ' :: rest) :=
  .inr ⟨' ', rest, rfl, rfl⟩

theorem AtBlank.forall_head? (h : AtBlank behind) {p : Char → Prop} (hp : ∀ c ∈ blanks, p c) :
    ∀ c ∈ behind.head?, p c := by
  rcases h with rfl | ⟨c, rest, hc, rfl⟩
  · exact nofun
  · exact fun d hd => Option.some.inj hd ▸ hp c (mem_blanks hc)

/-- What is found of the blanks by going through them. (Deciding `∀ c ∈ blanks, p c` may
    go through all the characters there are.) -/
theorem AtBlank.forall_head?_of_all (h : AtBlank behind) {p : Char → Prop} [DecidablePred p]
    (hp : (blanks.all fun c => p c) = true) : ∀ c ∈ behind.head?, p c :=
  h.forall_head? (List.all_iff_forall_prop.1 hp)

theorem AtToken.append (h : AtToken token) (behind : List Char) : AtToken (token ++ behind) := by
  obtain ⟨c, rest, rfl, hc⟩ := h
  exact ⟨c, rest ++ behind, rfl, hc⟩

theorem AtToken.skipBlanks_eq (h : AtToken token) : skipBlanks token = token := by
  obtain ⟨c, rest, rfl, hc⟩ := h
  exact List.dropWhile_cons_of_neg (by simp [hc])

theorem AtToken.ne_nil (h : AtToken token) : token ≠ [] := by
  obtain ⟨c, rest, rfl, -⟩ := h
  exact List.cons_ne_nil c rest

theorem isBlank_of_isDigit {c : Char} (h : c.isDigit = true) : isBlank c = false := by
  refine Bool.eq_false_iff.2 fun hblank => ?_
  simp only [isBlank, Bool.or_eq_true, Bool.and_eq_true, beq_iff_eq, decide_eq_true_eq] at hblank
  simp only [Char.isDigit, Bool.and_eq_true, decide_eq_true_eq] at h
  rcases hblank with rfl | ⟨-, hle⟩
  · exact absurd h (by decide)
  · exact absurd (UInt32.le_trans h.1 hle) (by decide)

theorem atToken_of_startsNumber (h : startsNumber token = true) : AtToken token := by
  obtain - | ⟨c, rest⟩ := token
  · cases h
  · refine ⟨c, rest, rfl, ?_⟩
    rcases Numeral.startsNumber_cons h with hc | rfl | ⟨rfl, -⟩
    · exact isBlank_of_isDigit hc
    · decide
    · decide

theorem skipBlanks_cons (text : List Char) : skipBlanks (' ' :: text) = skipBlanks text :=
  List.dropWhile_cons_of_pos rfl

/-- What follows a blank is no part of a spelling without blanks. -/
theorem longestMatch_token {α : Type} {spelling : α → String} {table : List α}
    (htable : ∀ e ∈ table, ∀ c ∈ blanks, c ∉ (spelling e).toList) (h : AtBlank behind) :
    longestMatch spelling table (token ++ behind) = longestMatch spelling table token :=
  longestMatch_append fun e he => h.forall_head? (htable e he)

theorem startsDigit_of_atBlank (h : AtBlank behind) : startsDigit behind = false := by
  have hdigit := h.forall_head?_of_all (p := fun c => c.isDigit = false) (by decide)
  cases behind with
  | nil => rfl
  | cons c rest => exact hdigit c rfl

theorem startsNumber_append (hne : token ≠ []) (h : AtBlank behind) :
    startsNumber (token ++ behind) = startsNumber token := by
  obtain - | ⟨c, rest⟩ := token
  · exact absurd rfl hne
  · obtain - | ⟨d, rest⟩ := rest
    · rw [List.singleton_append, startsNumber, startsDigit_of_atBlank h]
      rfl
    · rfl

theorem startsLetter_of_atBlank (h : AtBlank behind) : startsLetter behind = false := by
  have hletter := h.forall_head?_of_all (p := fun c => c.isAlpha = false) (by decide)
  cases behind with
  | nil => rfl
  | cons c rest => exact hletter c rfl

end Text

open Text

/-! ## Operators -/

namespace Operator

/-- No two operators have the same name, and what their names have in common. -/
theorem spelling_facts : (table.map spelling).Nodup ∧ ∀ o ∈ table, o.spelling.toList ≠ [] ∧
    blanks.all (fun c => c ∉ o.spelling.toList) = true ∧
      startsNumber o.spelling.toList = false := by
  decide +kernel

theorem nodup_spelling : (table.map spelling).Nodup := spelling_facts.1

theorem blank_notMem : ∀ o ∈ table, ∀ c ∈ blanks, c ∉ o.spelling.toList := fun o ho =>
  List.all_iff_forall_prop.1 (spelling_facts.2 o ho).2.1

variable {o : Operator} {behind : List Char}

theorem begins?_token (h : o ∈ table) (hbehind : AtBlank behind) :
    begins? (o.spelling.toList ++ behind) = some o :=
  (longestMatch_token blank_notMem hbehind).trans (longestMatch_self nodup_spelling h)

theorem atToken (h : o ∈ table) : AtToken o.spelling.toList := by
  obtain ⟨c, rest, htext⟩ := List.exists_cons_of_ne_nil (spelling_facts.2 o h).1
  have hblank := blank_notMem o h
  rw [htext] at hblank ⊢
  refine ⟨c, rest, rfl, Bool.eq_false_iff.2 fun hc => ?_⟩
  exact hblank c (mem_blanks hc) List.mem_cons_self

/-- An operator is found where the text begins with it and with no other one. -/
theorem begins?_of_unique {text : List Char} (h : o ∈ table)
    (hstarts : startsWith o.spelling text = true)
    (hunique : ∀ o' ∈ table, startsWith o'.spelling text = true → o' = o) :
    begins? text = some o := by
  obtain ⟨best, hbest, -⟩ := exists_longestMatch h hstarts
  rw [begins?, hbest, hunique best (mem_of_longestMatch hbest) (startsWith_of_longestMatch hbest)]

theorem startsNumber_token (h : o ∈ table) (hbehind : AtBlank behind) :
    startsNumber (o.spelling.toList ++ behind) = false := by
  rw [startsNumber_append (atToken h).ne_nil hbehind, (spelling_facts.2 o h).2.2]

end Operator

/-! ## Units -/

namespace Measure.Spelling

/-- A character that neither goes on with a numeral nor separates it from what
    follows. -/
def opens (c : Char) : Bool :=
  !c.isDigit && !isBlank c && c != '.' && c != ':' && c != '-' && c != 'x' && c != 'X'

/-- No two units are spelled alike, and what their spellings have in common. -/
theorem spelling_facts : (table.map spelling).Nodup ∧ ∀ s ∈ table,
    blanks.all (fun c => c ∉ s.spelling.toList) = true ∧
      s.spelling.toList.head?.any opens = true := by
  decide +kernel

theorem nodup_spelling : (table.map spelling).Nodup := spelling_facts.1

theorem blank_notMem : ∀ s ∈ table, ∀ c ∈ blanks, c ∉ s.spelling.toList := fun s hs =>
  List.all_iff_forall_prop.1 (spelling_facts.2 s hs).1

variable {s : Measure.Spelling} {behind : List Char}

theorem begins?_token (h : s ∈ table) (hbehind : AtBlank behind) :
    begins? (s.spelling.toList ++ behind) = some s :=
  (longestMatch_token blank_notMem hbehind).trans (longestMatch_self nodup_spelling h)

theorem head_opens (h : s ∈ table) :
    ∃ c rest, s.spelling.toList = c :: rest ∧ opens c = true := by
  have h := (spelling_facts.2 s h).2
  cases htext : s.spelling.toList with
  | nil => rw [htext] at h; cases h
  | cons c rest => rw [htext] at h; exact ⟨c, rest, rfl, h⟩

theorem atToken (h : s ∈ table) : AtToken s.spelling.toList := by
  obtain ⟨c, rest, htext, hc⟩ := head_opens h
  simp only [opens, Bool.and_eq_true, Bool.not_eq_true'] at hc
  exact ⟨c, rest, htext, hc.1.1.1.1.1.2⟩

theorem startsNumber_token (h : s ∈ table) :
    startsNumber (s.spelling.toList ++ behind) = false := by
  obtain ⟨c, rest, htext, hc⟩ := head_opens h
  simp only [opens, Bool.and_eq_true, Bool.not_eq_true', bne_iff_ne] at hc
  rw [htext]
  simp [startsNumber, hc.1.1]

theorem head?_token (h : s ∈ table) : (s.spelling.toList ++ behind).head? ≠ some ':' := by
  obtain ⟨c, rest, htext, hc⟩ := head_opens h
  rw [htext]
  rintro ⟨⟩
  cases hc

end Measure.Spelling

/-! ## Literals -/

namespace Numeral

/-- A run of digits, and what is behind it. -/
theorem span_digits {digits behind : List Char} (hdigits : ∀ c ∈ digits, c.isDigit = true)
    (hbehind : ∀ c ∈ behind.head?, c.isDigit = false) :
    (digits ++ behind).takeWhile Char.isDigit = digits ∧
      (digits ++ behind).dropWhile Char.isDigit = behind := by
  rw [List.takeWhile_append_of_pos hdigits, List.dropWhile_append_of_pos hdigits]
  obtain - | ⟨c, rest⟩ := behind
  · simp
  · have hc := hbehind c rfl
    simp [hc]

theorem readPlaces_text {places : Option (List Char)} {behind : List Char}
    (hplaces : ∀ c ∈ places.getD [], c.isDigit = true)
    (hbehind : ∀ c ∈ behind.head?, c.isDigit = false ∧ c ≠ '.') :
    readPlaces ((places.map fun p => '.' :: p).getD [] ++ behind) = (places, behind) := by
  cases places with
  | some p =>
    obtain ⟨htake, hdrop⟩ := span_digits hplaces fun c hc => (hbehind c hc).1
    exact Prod.ext (congrArg some htake) hdrop
  | none =>
    obtain - | ⟨c, rest⟩ := behind
    · rfl
    · have hc := (hbehind c rfl).2
      simp [readPlaces, hc]

theorem readSign_text (negative : Bool) {c : Char} (hc : c.isDigit = true) (rest : List Char) :
    readSign ((if negative then ['-'] else []) ++ c :: rest) = (negative, c :: rest) := by
  cases negative with
  | true => simp [readSign, startsDigit, hc]
  | false =>
    have hne : c ≠ '-' := fun h => absurd hc (by rw [h]; decide)
    simp [readSign, hne]

/-- The sign, the digits before the point, and the point with the places. -/
theorem text_eq {n : Numeral} (hne : n.whole ≠ []) :
    n.text = (if n.negative then ['-'] else []) ++
      (n.whole ++ (n.places.map fun p => '.' :: p).getD []) := by
  obtain ⟨negative, whole, places⟩ := n
  have hempty : whole.isEmpty = false := by simpa using hne
  cases negative <;> cases places <;> simp [text, wholeDigits, hempty]

theorem startsNumber_text {n : Numeral} (hne : n.whole ≠ [])
    (hwhole : ∀ c ∈ n.whole, c.isDigit = true) (behind : List Char) :
    startsNumber (n.text ++ behind) = true := by
  obtain ⟨c, digits, hdigits⟩ := List.exists_cons_of_ne_nil hne
  have hc : c.isDigit = true := hwhole c (hdigits ▸ List.mem_cons_self)
  rw [text_eq hne, hdigits]
  cases n.negative <;> simp [startsNumber, startsDigit, hc]

/-- A numeral that begins with a digit is read as it is written. -/
theorem read_text {n : Numeral} {behind : List Char} (hne : n.whole ≠ [])
    (hwhole : ∀ c ∈ n.whole, c.isDigit = true) (hplaces : ∀ c ∈ n.places.getD [], c.isDigit = true)
    (hbehind : ∀ c ∈ behind.head?, c.isDigit = false ∧ c ≠ '.') :
    read (n.text ++ behind) = (n, behind) := by
  rw [text_eq hne]
  obtain ⟨negative, whole, places⟩ := n
  dsimp only at hne hwhole hplaces ⊢
  obtain ⟨c, digits, rfl⟩ := List.exists_cons_of_ne_nil hne
  have hread := readPlaces_text hplaces hbehind
  -- The digits end at the point, or at what is behind the numeral.
  have htail : ∀ d ∈ ((places.map fun p => '.' :: p).getD [] ++ behind).head?,
      d.isDigit = false := by
    cases places with
    | some p => exact fun d hd => Option.some.inj hd ▸ by decide
    | none => exact fun d hd => (hbehind d hd).1
  rw [List.append_assoc, List.append_assoc]
  generalize (places.map fun p => '.' :: p).getD [] ++ behind = tail at hread htail ⊢
  obtain ⟨htake, hdrop⟩ := span_digits hwhole htail
  rw [List.cons_append] at htake hdrop ⊢
  rw [read, readSign_text negative (hwhole c List.mem_cons_self)]
  dsimp only
  rw [hdrop, hread, htake]

end Numeral

namespace Literal

variable {behind : List Char}

/-- What follows the numeral does not go on with it. -/
theorem head_suffix (l : Literal) (hbehind : AtBlank behind) :
    ∀ c ∈ (l.suffix ++ behind).head?, c.isDigit = false ∧ c ≠ '.' ∧ c ≠ 'x' ∧ c ≠ 'X' := by
  have hhead : ∀ c ∈ (l.suffix ++ behind).head?, Measure.Spelling.opens c = true ∨ c ∈ blanks := by
    rw [suffix]
    cases hunit : l.unit with
    | some s =>
      obtain ⟨c, rest, htext, hc⟩ := Measure.Spelling.head_opens (l.unit_mem s hunit)
      rw [Option.map_some, Option.getD_some, htext]
      exact fun d hd => .inl (Option.some.inj hd ▸ hc)
    | none => exact hbehind.forall_head? fun d => .inr
  intro c hc
  rcases hhead c hc with h | h
  · simp only [Measure.Spelling.opens, Bool.and_eq_true, Bool.not_eq_true', bne_iff_ne] at h
    exact ⟨h.1.1.1.1.1.1, h.1.1.1.1.2, h.1.2, h.2⟩
  · have hblank : ∀ c ∈ blanks, c.isDigit = false ∧ c ≠ '.' ∧ c ≠ 'x' ∧ c ≠ 'X' :=
      List.all_iff_forall_prop.1 (by decide)
    exact hblank c h

theorem text_append (l : Literal) (behind : List Char) :
    l.text ++ behind = l.numeral.text ++ (l.suffix ++ behind) :=
  List.append_assoc ..

theorem startsNumber_text (l : Literal) (behind : List Char) :
    startsNumber (l.text ++ behind) = true := by
  rw [text_append]
  exact Numeral.startsNumber_text l.whole_ne_nil l.isDigit_whole _

theorem atToken (l : Literal) : AtToken l.text :=
  atToken_of_startsNumber (List.append_nil l.text ▸ l.startsNumber_text [])

theorem startsHex_cons {c : Char} {rest : List Char} (h : ∀ d ∈ rest.head?, d ≠ 'x' ∧ d ≠ 'X') :
    startsHex (c :: rest) = false := by
  obtain - | ⟨d, rest⟩ := rest
  · rfl
  · obtain - | ⟨d', rest⟩ := rest
    · rfl
    · simp [startsHex, h d rfl]

end Literal

namespace Quantity

variable {behind : List Char}

/-- Without a colon, only a unit that ends its word is read. -/
theorem readSuffixPart_cons (q : Quantity) {c : Char} {rest : List Char} (hc : c ≠ ':') :
    q.readSuffixPart (c :: rest) =
      (match Measure.Spelling.begins? (c :: rest) with
      | none => return (q, false)
      | some s =>
        if startsLetter ((c :: rest).drop s.spelling.length) then return (q, false)
        else do
          Scan.drop s.spelling.length
          return ({ q with measure := s.measure }, true) : Scan (Quantity × Bool)) (c :: rest) := by
  refine (bind_of_ok (y := get) rfl).trans (congrFun ?_ (c :: rest))
  split
  · rename_i heq
    cases heq
  · rename_i heq
    exact absurd (List.cons.inj heq).1 hc
  · rename_i heq
    exact absurd (List.cons.inj heq).1 hc
  · rename_i heq
    exact absurd (List.cons.inj heq).1 hc
  · rfl

/-- A unit within a word is not taken. -/
theorem readSuffixPart_of_within (q : Quantity) (hcolon : ∀ c ∈ behind.head?, c ≠ ':')
    (hwithin : ∀ s, Measure.Spelling.begins? behind = some s →
      startsLetter (behind.drop s.spelling.length) = true) :
    q.readSuffixPart behind = .ok (q, false) behind := by
  cases behind with
  | nil => rfl
  | cons c rest =>
    rw [readSuffixPart_cons q (hcolon c rfl)]
    cases hs : Measure.Spelling.begins? (c :: rest) with
    | none => rfl
    | some s =>
      dsimp only
      rw [hwithin s hs, if_pos rfl]
      rfl

theorem readSuffixPart_of_none (q : Quantity) (hnone : Measure.Spelling.begins? behind = none)
    (hcolon : ∀ c ∈ behind.head?, c ≠ ':') : q.readSuffixPart behind = .ok (q, false) behind :=
  q.readSuffixPart_of_within hcolon fun _ hs => nomatch hnone.symm.trans hs

theorem readSuffixPart_atBlank (q : Quantity) (hbehind : AtBlank behind) :
    q.readSuffixPart behind = .ok (q, false) behind := by
  have hnone : Measure.Spelling.begins? ([] ++ behind) = none :=
    (longestMatch_token Measure.Spelling.blank_notMem hbehind).trans (by decide)
  exact q.readSuffixPart_of_none hnone (hbehind.forall_head?_of_all (by decide))

theorem drop_spelling (spelling : String) (behind : List Char) :
    (spelling.toList ++ behind).drop spelling.length = behind := by
  rw [← String.length_toList, List.drop_left]

/-- A unit that ends its word is read. -/
theorem readSuffixPart_word (q : Quantity) {s : Measure.Spelling}
    (h : s ∈ Measure.Spelling.table)
    (hbegins : Measure.Spelling.begins? (s.spelling.toList ++ behind) = some s)
    (hletter : startsLetter behind = false) :
    q.readSuffixPart (s.spelling.toList ++ behind) =
      .ok ({ q with measure := s.measure }, true) behind := by
  have hdrop := drop_spelling s.spelling behind
  obtain ⟨c, rest, htext, hc⟩ := Measure.Spelling.head_opens h
  rw [htext] at hbegins hdrop ⊢
  have hcolon : c ≠ ':' := by
    rintro rfl
    cases hc
  rw [List.cons_append] at hbegins hdrop ⊢
  rw [readSuffixPart_cons q hcolon, hbegins]
  dsimp only
  rw [hdrop, hletter, if_neg Bool.false_ne_true]
  change EStateM.Result.ok _ ((c :: (rest ++ behind)).drop s.spelling.length) = _
  rw [hdrop]

theorem readSuffixPart_unit (q : Quantity) {s : Measure.Spelling}
    (h : s ∈ Measure.Spelling.table) (hbehind : AtBlank behind) :
    q.readSuffixPart (s.spelling.toList ++ behind) =
      .ok ({ q with measure := s.measure }, true) behind :=
  q.readSuffixPart_word h (Measure.Spelling.begins?_token h hbehind)
    (startsLetter_of_atBlank hbehind)

/-- Behind the last unit, or the numeral, nothing more is read. -/
theorem readSuffixes_atBlank (q : Quantity) (hbehind : AtBlank behind) :
    q.readSuffixes behind = .ok q behind := by
  rw [readSuffixes_eq]
  exact bind_of_ok (readSuffixPart_atBlank q hbehind)

theorem readSuffixes_suffix (l : Literal) (hbehind : AtBlank behind) :
    (ofNumeral l.numeral).readSuffixes (l.suffix ++ behind) = .ok l.quantity behind := by
  rw [Literal.suffix, Literal.quantity]
  cases hunit : l.unit with
  | none => exact readSuffixes_atBlank _ hbehind
  | some s =>
    rw [readSuffixes_eq]
    exact (bind_of_ok (readSuffixPart_unit _ (l.unit_mem s hunit) hbehind)).trans
      (readSuffixes_atBlank _ hbehind)

theorem skipBlanks_token {token : List Char} (h : AtToken token) (behind : List Char) :
    Scan.skipBlanks (token ++ behind) = .ok ⟨⟩ (token ++ behind) :=
  congrArg (EStateM.Result.ok PUnit.unit) (h.append behind).skipBlanks_eq

/-- No digit makes a numeral look hexadecimal. -/
theorem ne_of_isDigit {c : Char} (h : c.isDigit = true) : c ≠ 'x' ∧ c ≠ 'X' := by
  constructor <;> rintro rfl <;> cases h

theorem readMeasure_unit {s : Measure.Spelling} (h : s ∈ Measure.Spelling.table)
    (hbehind : AtBlank behind) :
    readMeasure { magnitude := .whole 0 } (s.spelling.toList ++ behind) = .ok s.target behind := by
  have hbegins := Measure.Spelling.begins?_token h hbehind
  refine (bind_of_ok (y := get) rfl).trans ?_
  rw [hbegins]
  change EStateM.Result.ok _ ((s.spelling.toList ++ behind).drop s.spelling.length) = _
  rw [drop_spelling]
  rfl

theorem readTargetFormat_atBlank (q : Quantity) (hbehind : AtBlank behind) :
    q.readTargetFormat behind = .ok q behind := by
  have hcolon := hbehind.forall_head?_of_all (p := fun c => c ≠ ':') (by decide)
  have hstarts : startsWith ":%" behind = false := by
    cases behind with
    | nil => rfl
    | cons c rest =>
      have hne : (':' == c) = false := beq_eq_false_iff_ne.2 (hcolon c rfl).symm
      simp [startsWith, List.isPrefixOf, hne]
  refine (bind_of_ok (y := get) rfl).trans ?_
  rw [hstarts]
  rfl

/-- Without an `x` behind it, a decimal numeral does not look hexadecimal. -/
theorem startsHex_numeral {n : Numeral} (hne : n.whole ≠ [])
    (hwhole : ∀ c ∈ n.whole, c.isDigit = true)
    (hbehind : ∀ c ∈ behind.head?, c ≠ 'x' ∧ c ≠ 'X') :
    startsHex (n.text ++ behind) = false := by
  obtain ⟨c, digits, hdigits⟩ := List.exists_cons_of_ne_nil hne
  have hc : c.isDigit = true := hwhole c (hdigits ▸ List.mem_cons_self)
  have htext : n.text ++ behind = (if n.negative then ['-'] else []) ++
      c :: (digits ++ ((n.places.map fun p => '.' :: p).getD [] ++ behind)) := by
    rw [Numeral.text_eq hne, hdigits]
    simp only [List.append_assoc, List.cons_append]
  -- The second character is a digit, the point or the first of what is behind.
  rw [htext]
  cases n.negative with
  | true => exact Literal.startsHex_cons fun d hd => Option.some.inj hd ▸ ne_of_isDigit hc
  | false =>
    refine Literal.startsHex_cons fun d hd => ?_
    obtain - | ⟨e, digits⟩ := digits
    · cases hpoint : n.places with
      | some p =>
        rw [hpoint] at hd
        exact Option.some.inj hd ▸ by decide
      | none =>
        rw [hpoint] at hd
        exact hbehind d hd
    · obtain rfl := Option.some.inj hd
      exact ne_of_isDigit (hwhole e (hdigits ▸ List.mem_cons_of_mem _ List.mem_cons_self))

variable [DigitLimit]

/-- A decimal numeral is read up to where it does not go on. -/
theorem readLiteral_decimal {n : Numeral} (hne : n.whole ≠ [])
    (hwhole : ∀ c ∈ n.whole, c.isDigit = true) (hplaces : ∀ c ∈ n.places.getD [], c.isDigit = true)
    (hbehind : ∀ c ∈ behind.head?, c.isDigit = false ∧ c ≠ '.')
    (hhex : startsHex (n.text ++ behind) = false) :
    readLiteral (n.text ++ behind) = (takeNumeral n >>= readSuffixes) behind := by
  have hnumber := Numeral.startsNumber_text hne hwhole behind
  have hskip := (atToken_of_startsNumber hnumber).skipBlanks_eq
  rw [readLiteral_of_startsNumber (hskip.symm ▸ hhex) (hskip.symm ▸ hnumber), hskip,
    Numeral.read_text hne hwhole hplaces hbehind]

theorem readLiteral_numeral {n : Numeral} (hne : n.whole ≠ [])
    (hwhole : ∀ c ∈ n.whole, c.isDigit = true) (hplaces : ∀ c ∈ n.places.getD [], c.isDigit = true)
    (hbehind : ∀ c ∈ behind.head?, c.isDigit = false ∧ c ≠ '.' ∧ c ≠ 'x' ∧ c ≠ 'X') :
    readLiteral (n.text ++ behind) = (takeNumeral n >>= readSuffixes) behind :=
  readLiteral_decimal hne hwhole hplaces (fun c hc => ⟨(hbehind c hc).1, (hbehind c hc).2.1⟩)
    (startsHex_numeral hne hwhole fun c hc => (hbehind c hc).2.2)

/-- Of a literal without a unit, the numeral is read first. -/
theorem readLiteral_bare {l : Literal} (hunit : l.unit = none)
    (hbehind : ∀ c ∈ behind.head?, c.isDigit = false ∧ c ≠ '.' ∧ c ≠ 'x' ∧ c ≠ 'X')
    (hfits : l.numeral.Fits) :
    readLiteral (l.text ++ behind) = l.quantity.readSuffixes behind := by
  have htext : l.text = l.numeral.text := by simp [Literal.text, Literal.suffix, hunit]
  have hquantity : l.quantity = ofNumeral l.numeral := by simp [Literal.quantity, hunit]
  rw [htext, hquantity,
    readLiteral_numeral l.whole_ne_nil l.isDigit_whole l.isDigit_places hbehind,
    takeNumeral_bind hfits]

theorem readLiteral_text (l : Literal) (hbehind : AtBlank behind) (hfits : l.numeral.Fits) :
    readLiteral (l.text ++ behind) = .ok l.quantity behind := by
  rw [l.text_append, readLiteral_numeral l.whole_ne_nil l.isDigit_whole l.isDigit_places
    (l.head_suffix hbehind), takeNumeral_bind hfits]
  exact readSuffixes_suffix l hbehind

/-- A literal with too many digits interrupts reading behind its numeral. -/
theorem readLiteral_overlong (l : Literal) {f : Fault} (hf : l.numeral.fault? = some f)
    (hbehind : ∀ c ∈ (l.suffix ++ behind).head?, c.isDigit = false ∧ c ≠ '.' ∧ c ≠ 'x' ∧ c ≠ 'X') :
    readLiteral (l.text ++ behind) = .error (.fault f) (l.suffix ++ behind) := by
  rw [l.text_append, readLiteral_numeral l.whole_ne_nil l.isDigit_whole l.isDigit_places hbehind,
    takeNumeral_bind_of_fault? hf]
  rfl

theorem fault?_literal (l : Literal)
    (hbehind : ∀ c ∈ (l.suffix ++ behind).head?, c.isDigit = false ∧ c ≠ '.' ∧ c ≠ 'x' ∧ c ≠ 'X') :
    Text.fault? (l.text ++ behind) = l.numeral.fault? := by
  have hhex := startsHex_numeral l.whole_ne_nil l.isDigit_whole fun c hc => (hbehind c hc).2.2
  have hread := Numeral.read_text l.whole_ne_nil l.isDigit_whole l.isDigit_places
    fun c hc => ⟨(hbehind c hc).1, (hbehind c hc).2.1⟩
  rw [← l.text_append] at hhex hread
  rw [Text.fault?, (l.atToken.append behind).skipBlanks_eq, l.startsNumber_text, hhex, hread]
  rfl

theorem fault?_text (l : Literal) : Text.fault? l.text = l.numeral.fault? := by
  rw [← List.append_nil l.text]
  exact fault?_literal l (l.head_suffix (.inl rfl))

/-- A digit written over and over may be too many of them. -/
theorem fault?_replicate {c : Char} (hc : c.isDigit = true) (n : Nat) :
    Text.fault? (List.replicate (n + 1) c) =
      (DigitLimit.most?.filter (· < n + 1)).map (.tooManyDigits · (n + 1)) := by
  let l : Literal := ⟨⟨false, List.replicate (n + 1) c, none⟩, none, List.cons_ne_nil _ _,
    fun d hd => List.eq_of_mem_replicate hd ▸ hc, Literal.isDigit_places_none,
    Literal.unit_mem_none⟩
  have htext : l.text = List.replicate (n + 1) c := List.append_nil _
  have hfault := fault?_text l
  rw [htext] at hfault
  rw [hfault]
  simp only [l, Numeral.fault?, List.length_replicate]

theorem readTarget_unit {s : Measure.Spelling} (h : s ∈ Measure.Spelling.table)
    (hbehind : AtBlank behind) :
    readTarget (s.spelling.toList ++ behind) = .ok s.target behind := by
  refine (bind_of_ok (skipBlanks_token (Measure.Spelling.atToken h) behind)).trans
    ((bind_of_ok (y := get) rfl).trans ?_)
  rw [Measure.Spelling.startsNumber_token h, if_neg Bool.false_ne_true]
  have hdrop : Scan.drop (if (s.spelling.toList ++ behind).head? = some ':' then 1 else 0)
      (s.spelling.toList ++ behind) = .ok ⟨⟩ (s.spelling.toList ++ behind) := by
    rw [if_neg (Measure.Spelling.head?_token h)]
    rfl
  exact (bind_of_ok hdrop).trans
    ((bind_of_ok (readMeasure_unit h hbehind)).trans (readTargetFormat_atBlank _ hbehind))

end Quantity

end Reckoner
