import Reckoner.Name
import Reckoner.Proofs.Ends
import Reckoner.Proofs.Text.LongestMatch

/-!
# Scanning moves forward

Reading leaves the end of the text it was given: it drops characters from the
head, and never puts any back (`Scan.Moves`). A literal, a unit to convert into
and a name take one character or more (`Scan.Takes`), unless they fail. Nothing
interrupts them but a whole number with too many digits (`Scan.Limited`).

The parts behind a numeral are read in a loop. Each part behind which another
one may follow takes a character (`takes_readSuffixPart`), so the loop ends, and
it makes no difference how many steps more than characters it is allowed
(`readSuffix_eq_of_le`). None of them changes the number (`readSuffix_keeps`).
-/

namespace Reckoner

namespace Text

/-- `rest` is an end of `text`, but not all of it. -/
def Past (rest text : List Char) : Prop :=
  rest <:+ text ∧ rest.length < text.length

theorem Past.of_suffix {rest mid text : List Char} (h : Past mid text) (h' : rest <:+ mid) :
    Past rest text :=
  ⟨h'.trans h.1, Nat.lt_of_le_of_lt h'.length_le h.2⟩

theorem Past.suffix_trans {rest mid text : List Char} (h : Past rest mid) (h' : mid <:+ text) :
    Past rest text :=
  ⟨h.1.trans h', Nat.lt_of_lt_of_le h.2 h'.length_le⟩

theorem past_cons (c : Char) (text : List Char) : Past text (c :: text) :=
  ⟨List.suffix_cons c text, Nat.lt_succ_self _⟩

theorem past_drop {n : Nat} {text : List Char} (hn : 0 < n) (ht : text ≠ []) :
    Past (text.drop n) text := by
  have : 0 < text.length := List.length_pos_iff.2 ht
  exact ⟨List.drop_suffix n text, by rw [List.length_drop]; omega⟩

theorem suffix_skipBlanks (text : List Char) : skipBlanks text <:+ text :=
  List.dropWhile_suffix _

theorem skipBlanks_skipBlanks (text : List Char) :
    skipBlanks (skipBlanks text) = skipBlanks text := by
  cases h : skipBlanks text with
  | nil => rfl
  | cons c rest =>
    have hc := not_isBlank_of_skipBlanks h
    exact List.dropWhile_cons_of_neg (by simp [hc])

/-- There are a zero, the mark and a digit. -/
theorem exists_of_startsHex {text : List Char} (h : startsHex text = true) :
    ∃ x d rest, (x = 'x' ∨ x = 'X') ∧ isHexDigit d = true ∧ text = '0' :: x :: d :: rest := by
  obtain - | ⟨z, - | ⟨x, - | ⟨d, rest⟩⟩⟩ := text
  · cases h
  · cases h
  · cases h
  · simp only [startsHex, Bool.and_eq_true, Bool.or_eq_true, beq_iff_eq] at h
    obtain ⟨⟨rfl, hx⟩, hd⟩ := h
    exact ⟨x, d, rest, hx, hd, rfl⟩

theorem ne_nil_of_startsWith {s : String} {text : List Char} (hs : s.toList ≠ [])
    (h : startsWith s text = true) : text ≠ [] := by
  rintro rfl
  exact hs (List.prefix_nil.1 (startsWith_iff.1 h))

end Text

open Text

/-! ## Numerals -/

namespace Numeral

theorem readPlaces_suffix (text : List Char) : (readPlaces text).2 <:+ text := by
  simp only [readPlaces]
  split
  · exact (List.dropWhile_suffix _).trans (List.suffix_cons _ _)
  · exact List.suffix_refl _

theorem startsNumber_cons {c : Char} {rest : List Char} (h : startsNumber (c :: rest) = true) :
    c.isDigit = true ∨ c = '.' ∨ (c = '-' ∧ startsDigit rest = true) := by
  simp only [startsNumber, Bool.or_eq_true, Bool.and_eq_true, beq_iff_eq] at h
  rcases h with hc | ⟨hc | hc, hrest⟩
  · exact .inl hc
  · exact .inr (.inr ⟨hc, hrest⟩)
  · exact .inr (.inl hc)

theorem dropWhile_suffix_tail {c : Char} {rest : List Char} (hc : c.isDigit = true) :
    (c :: rest).dropWhile Char.isDigit <:+ rest := by
  rw [List.dropWhile_cons_of_pos hc]
  exact List.dropWhile_suffix _

theorem read_past {text : List Char} (h : startsNumber text = true) : Past (read text).2 text := by
  obtain - | ⟨c, rest⟩ := text
  · simp [startsNumber] at h
  refine (past_cons c rest).of_suffix ?_
  have hread : (read (c :: rest)).2 =
      (readPlaces ((readSign (c :: rest)).2.dropWhile Char.isDigit)).2 := rfl
  rw [hread]
  -- The first character is taken as a digit, as the point or as the sign.
  rcases startsNumber_cons h with hc | rfl | ⟨rfl, hrest⟩
  · have hsign : readSign (c :: rest) = (false, c :: rest) := by
      simp only [readSign]
      split
      · rename_i heq
        obtain ⟨rfl, -⟩ := List.cons.inj heq
        exact absurd hc (by decide)
      · rfl
    rw [hsign]
    exact (readPlaces_suffix _).trans (dropWhile_suffix_tail hc)
  · exact List.dropWhile_suffix _
  · have hsign : readSign ('-' :: rest) = (true, rest) := by simp [readSign, hrest]
    rw [hsign]
    exact (readPlaces_suffix _).trans (List.dropWhile_suffix _)

end Numeral

/-! ## Scanners -/

namespace Scan

variable {α β : Type} {x : Scan α} {f : α → Scan β} {text mid : List Char}

/-- The scanner leaves an end of the text. -/
def Moves (x : Scan α) (text : List Char) : Prop :=
  Ends x text (fun _ rest => rest <:+ text) (fun _ rest => rest <:+ text)

/-- The scanner leaves an end of the text, and takes something unless it fails. -/
def Takes (x : Scan α) (text : List Char) : Prop :=
  Ends x text (fun _ rest => Past rest text) (fun _ rest => rest <:+ text)

theorem Takes.moves (h : Takes x text) : Moves x text :=
  h.mono (fun _ _ h => h.1) (fun _ _ h => h)

theorem Moves.bind (h : Moves x text) (hf : ∀ a rest, Moves (f a) rest) : Moves (x >>= f) text :=
  ends_bind.2 (h.mono
    (fun a rest h => (hf a rest).mono (fun _ _ h' => h'.trans h) (fun _ _ h' => h'.trans h))
    (fun _ _ h => h))

theorem Takes.bind (h : Takes x text) (hf : ∀ a rest, Moves (f a) rest) : Takes (x >>= f) text :=
  ends_bind.2 (h.mono
    (fun a rest h => (hf a rest).mono (fun _ _ h' => h.of_suffix h') (fun _ _ h' => h'.trans h.1))
    (fun _ _ h => h))

theorem Moves.bind_takes (h : Moves x text) (hf : ∀ a rest, Takes (f a) rest) :
    Takes (x >>= f) text :=
  ends_bind.2 (h.mono
    (fun a rest h => (hf a rest).mono (fun _ _ h' => h'.suffix_trans h) (fun _ _ h' => h'.trans h))
    (fun _ _ h => h))

theorem moves_pure (a : α) (text : List Char) : Moves (pure a) text :=
  ends_pure.2 (List.suffix_refl _)

theorem takes_throw (snag : Snag) (text : List Char) : Takes (throw snag : Scan α) text :=
  ends_throw.2 (List.suffix_refl _)

theorem moves_skipBlanks (text : List Char) : Moves skipBlanks text :=
  ends_modify.2 (suffix_skipBlanks text)

theorem moves_drop (n : Nat) (text : List Char) : Moves (drop n) text :=
  ends_modify.2 (List.drop_suffix n text)

theorem takes_drop {n : Nat} (hn : 0 < n) (ht : text ≠ []) : Takes (drop n) text :=
  ends_modify.2 (past_drop hn ht)

end Scan

open Scan

/-! ## Spellings -/

theorem Measure.Spelling.length_pos {s : Spelling} (h : s ∈ table) : 0 < s.spelling.length := by
  revert s
  decide

namespace Quantity

/-! ## Suffixes of numerals -/

theorem begins?_drop {s : Measure.Spelling} {text : List Char}
    (h : Measure.Spelling.begins? text = some s) : Takes (drop s.spelling.length) text := by
  have hpos := Measure.Spelling.length_pos (mem_of_longestMatch h)
  refine takes_drop hpos (ne_nil_of_startsWith ?_ (startsWith_of_longestMatch h))
  rw [← List.length_pos_iff, String.length_toList]
  exact hpos

theorem takes_readMeasure (q : Quantity) (text : List Char) : Takes q.readMeasure text := by
  refine ends_bind.2 (ends_get.2 ?_)
  cases h : Measure.Spelling.begins? text with
  | none => exact takes_throw _ _
  | some s => exact (begins?_drop h).bind fun _ _ => moves_pure _ _

theorem moves_readFormat (q : Quantity) (text : List Char) : Moves q.readFormat text :=
  ends_bind.2 (ends_modifyGet.2 (List.drop_suffix _ _))

/-- A part behind which another one may follow takes something. -/
theorem ends_readSuffixPart (q : Quantity) (text : List Char) :
    Ends q.readSuffixPart text
      (fun part rest => rest <:+ text ∧ (part.2 = true → Past rest text))
      (fun _ rest => rest <:+ text) := by
  rw [readSuffixPart]
  refine ends_bind.2 (ends_get.2 ?_)
  split
  · exact ⟨List.suffix_refl _, nofun⟩
  · exact ⟨List.suffix_refl _, nofun⟩
  · -- A format ends the suffix, whatever it takes.
    rename_i rest
    have hformat : Moves q.readFormat ('%' :: rest) := moves_readFormat q _
    exact ends_bind.2 (ends_modify.2 (ends_bind.2 (hformat.mono
      (fun _ _ h => ⟨h.trans (List.suffix_cons _ _), nofun⟩)
      (fun _ _ h => h.trans (List.suffix_cons _ _)))))
  · -- A unit behind a colon takes more than the colon.
    rename_i rest _ _
    have hmeasure : Takes q.readMeasure rest := takes_readMeasure q rest
    have hpast : ∀ rest', Past rest' rest → Past rest' (':' :: rest) :=
      fun _ h => h.suffix_trans (List.suffix_cons _ _)
    exact ends_bind.2 (ends_modify.2 (ends_bind.2 (hmeasure.mono
      (fun _ rest' h => ⟨(hpast rest' h).1, fun _ => hpast rest' h⟩)
      (fun _ _ h => h.trans (List.suffix_cons _ _)))))
  · cases h : Measure.Spelling.begins? text with
    | none => exact ⟨List.suffix_refl _, nofun⟩
    | some s =>
      dsimp only
      split
      · exact ⟨List.suffix_refl _, nofun⟩
      · exact ends_bind.2 ((begins?_drop h).mono (fun _ _ h => ⟨h.1, fun _ => h⟩) (fun _ _ h => h))

theorem moves_readSuffix (steps : Nat) (q : Quantity) (text : List Char) :
    Moves (q.readSuffix steps) text := by
  induction steps generalizing q text with
  | zero => exact moves_pure _ _
  | succ steps ih =>
    have hpart : Moves q.readSuffixPart text :=
      (ends_readSuffixPart q text).mono (fun _ _ h => h.1) (fun _ _ h => h)
    refine hpart.bind fun part rest => ?_
    obtain ⟨q, more⟩ := part
    cases more with
    | true => exact ih q rest
    | false => exact moves_pure _ _

/-- As many steps as there are characters are enough: more make no
    difference. -/
theorem readSuffix_eq_of_le {steps steps' : Nat} {text : List Char} (q : Quantity)
    (h : text.length ≤ steps) (h' : text.length ≤ steps') :
    q.readSuffix steps text = q.readSuffix steps' text := by
  have hend : ∀ n, q.readSuffix n [] = .ok q [] := fun n => by cases n <;> rfl
  induction steps generalizing q steps' text with
  | zero => rw [List.length_eq_zero_iff.1 (Nat.le_zero.1 h), hend, hend]
  | succ steps ih =>
    obtain - | steps' := steps'
    · rw [List.length_eq_zero_iff.1 (Nat.le_zero.1 h'), hend, hend]
    have hpart := ends_readSuffixPart q text
    simp only [readSuffix]
    cases hx : q.readSuffixPart text with
    | error f rest => rw [bind_of_error hx, bind_of_error hx]
    | ok part rest =>
      rw [bind_of_ok hx, bind_of_ok hx]
      obtain ⟨q, more⟩ := part
      cases more with
      | false => rfl
      | true =>
        -- A further part is read from a shorter text.
        have hpast : Past rest text := (hpart.of_ok hx).2 rfl
        have hlt := hpast.2
        exact ih q (by omega) (by omega) fun n => by cases n <;> rfl

/-- Reads the units and the format that follow a numeral, as many parts as there
    are. -/
def readSuffixes (q : Quantity) : Scan Quantity := fun text =>
  q.readSuffix text.length text

theorem readSuffixes_eq (q : Quantity) :
    q.readSuffixes = (do
      let (q, more) ← q.readSuffixPart
      if more then q.readSuffixes else return q) := by
  funext text
  change q.readSuffix text.length text = _
  rw [readSuffix_eq_of_le q (Nat.le_refl _) (Nat.le_succ _)]
  refine bind_eq_of_ok rfl fun part rest hpart => ?_
  obtain ⟨q, more⟩ := part
  cases more with
  | false => rfl
  | true =>
    have hpast : Past rest text := ((ends_readSuffixPart _ text).of_ok hpart).2 rfl
    exact readSuffix_eq_of_le q (Nat.le_of_lt hpast.2) (Nat.le_refl _)

theorem readMeasure_keeps (q : Quantity) (text : List Char) :
    Ends q.readMeasure text (fun q' _ => q'.magnitude = q.magnitude)
      (fun snag _ => snag.kind? = some .unknownUnit) := by
  refine ends_bind.2 (ends_get.2 ?_)
  split <;> rfl

/-- A part of the suffix leaves the number as it is, and fails for want of a unit only. -/
theorem readSuffixPart_keeps (q : Quantity) (text : List Char) :
    Ends q.readSuffixPart text (fun part _ => part.1.magnitude = q.magnitude)
      (fun snag _ => snag.kind? = some .unknownUnit) := by
  have hmeasure := readMeasure_keeps q
  rw [readSuffixPart]
  refine ends_bind.2 (ends_get.2 ?_)
  split
  · rfl
  · rfl
  · rfl
  · exact ends_bind.2 (ends_modify.2 (ends_bind.2 (hmeasure _)))
  · split
    · rfl
    · split <;> rfl

theorem readSuffix_keeps (steps : Nat) (q : Quantity) (text : List Char) :
    Ends (q.readSuffix steps) text (fun q' _ => q'.magnitude = q.magnitude)
      (fun snag _ => snag.kind? = some .unknownUnit) := by
  induction steps generalizing q text with
  | zero => rfl
  | succ steps ih =>
    refine ends_bind.2 ((readSuffixPart_keeps q text).mono (fun part rest hpart => ?_)
      (fun _ _ h => h))
    obtain ⟨q', more⟩ := part
    cases more with
    | true => exact (ih q' rest).mono (fun _ _ h => h.trans hpart) (fun _ _ h => h)
    | false => exact hpart

theorem moves_readTargetFormat (q : Quantity) (text : List Char) :
    Moves q.readTargetFormat text := by
  refine ends_bind.2 (ends_get.2 ?_)
  split
  · exact (moves_drop 1 text).bind fun _ _ => moves_readFormat q _
  · exact moves_pure _ _

theorem moves_readNameMeasure (q : Quantity) (text : List Char) :
    Moves q.readNameMeasure text := by
  refine ends_bind.2 (ends_get.2 ?_)
  split
  · exact (moves_drop 1 text).bind fun _ _ => (takes_readMeasure q _).moves
  · exact moves_pure _ _

/-! ## Literals, targets and names -/

variable [DigitLimit]

section

variable {text : List Char}

/-- A hexadecimal numeral is all that is read of its literal. -/
theorem readLiteral_of_startsHex (h : startsHex (Text.skipBlanks text) = true) :
    readLiteral text = .ok (ofHex (hexDigits (Text.skipBlanks text)))
      ((Text.skipBlanks text).drop (2 + (hexDigits (Text.skipBlanks text)).length)) := by
  refine (bind_of_ok (y := Scan.skipBlanks) rfl).trans ((bind_of_ok (y := get) rfl).trans ?_)
  rw [h, if_pos rfl]
  rfl

/-- Taking a numeral leaves the text as long as it is. -/
theorem takeNumeral_bind_readSuffix (n : Numeral) (rest : List Char) :
    (takeNumeral n >>= readSuffix rest.length) rest = (takeNumeral n >>= readSuffixes) rest := by
  rw [takeNumeral]
  split <;> rfl

theorem readLiteral_of_startsNumber (hhex : startsHex (Text.skipBlanks text) = false)
    (h : startsNumber (Text.skipBlanks text) = true) :
    readLiteral text = (takeNumeral (Numeral.read (Text.skipBlanks text)).1 >>= readSuffixes)
      (Numeral.read (Text.skipBlanks text)).2 := by
  refine (bind_of_ok (y := Scan.skipBlanks) rfl).trans ((bind_of_ok (y := get) rfl).trans ?_)
  rw [hhex, h]
  refine (bind_of_ok (y := set (Numeral.read (Text.skipBlanks text)).2) rfl).trans ?_
  exact takeNumeral_bind_readSuffix _ _

theorem readLiteral_of_not_startsNumber (hhex : startsHex (Text.skipBlanks text) = false)
    (h : startsNumber (Text.skipBlanks text) = false) :
    readLiteral text =
      .error (.failure (.notANumber (String.ofList (Text.skipBlanks text))))
        (Text.skipBlanks text) := by
  refine (bind_of_ok (y := Scan.skipBlanks) rfl).trans ((bind_of_ok (y := get) rfl).trans ?_)
  rw [hhex, h]
  rfl

end

theorem ends_takeNumeral {n : Numeral} {text : List Char} {Q : Quantity → List Char → Prop}
    {E : Snag → List Char → Prop} (hfits : n.Fits → Q (ofNumeral n) text)
    (hexceeds : ∀ f, n.fault? = some f → E (.fault f) text) :
    Ends (takeNumeral n) text Q E := by
  rw [takeNumeral]
  split
  · exact ends_throw.2 (hexceeds _ ‹_›)
  · exact ends_pure.2 (hfits ‹_›)

theorem moves_takeNumeral (n : Numeral) (text : List Char) : Moves (takeNumeral n) text :=
  ends_takeNumeral (fun _ => List.suffix_refl _) fun _ _ => List.suffix_refl _

theorem takes_readLiteral (text : List Char) : Takes readLiteral text := by
  refine (moves_skipBlanks text).bind_takes fun _ text => ends_bind.2 (ends_get.2 ?_)
  split
  · rename_i hhex
    have hne : text ≠ [] := by rintro rfl; simp [startsHex] at hhex
    exact (takes_drop (by omega) hne).bind fun _ _ => moves_pure _ _
  · split
    · exact takes_throw _ _
    · rename_i hnumber
      have hpast : Past (Numeral.read text).2 text := Numeral.read_past (by simpa using hnumber)
      have hread : Moves (takeNumeral (Numeral.read text).1 >>=
          readSuffix (Numeral.read text).2.length) (Numeral.read text).2 :=
        (moves_takeNumeral _ _).bind fun _ _ => moves_readSuffix _ _ _
      exact ends_bind.2 (ends_set.2 (hread.mono
        (fun _ _ h => hpast.of_suffix h) (fun _ _ h => h.trans hpast.1)))

theorem takes_readTarget (text : List Char) : Takes readTarget text := by
  refine (moves_skipBlanks text).bind_takes fun _ text => ends_bind.2 (ends_get.2 ?_)
  split
  · exact takes_readLiteral text
  · exact (moves_drop _ text).bind_takes fun _ _ =>
      (takes_readMeasure _ _).bind fun q _ => moves_readTargetFormat q _

theorem moves_readAssignment (q : Quantity) (text : List Char) : Moves q.readAssignment text := by
  refine ends_bind.2 (ends_get.2 ?_)
  split
  · exact (moves_drop 1 text).bind fun _ rest =>
      (takes_readLiteral rest).moves.bind fun _ _ => moves_pure _ _
  · exact moves_pure _ _

theorem takes_readName (store : Store) (text : List Char) : Takes (readName store) text := by
  refine (moves_skipBlanks text).bind_takes fun _ text => ends_bind.2 (ends_get.2 ?_)
  dsimp only
  split
  · exact takes_throw _ _
  · rename_i hname
    have hletters : letters text ≠ [] := fun h => hname (by rw [h]; decide)
    have htext : text ≠ [] := fun h => hletters (by rw [h]; rfl)
    exact (takes_drop (List.length_pos_iff.2 hletters) htext).bind fun _ _ =>
      (moves_readNameMeasure _ _).bind fun q _ => moves_readAssignment q _

end Quantity

/-! ## Faults of reading -/

/-- The fault of a snag, if it is one. -/
def Snag.fault? : Snag → Option Fault
  | .failure _ => none
  | .fault f => some f

theorem Snag.fault?_of_kind? {snag : Snag} {kind : ErrorKind} (h : snag.kind? = some kind) :
    snag.fault? = none := by
  cases snag with
  | failure f => rfl
  | fault f => cases h

variable [DigitLimit]

/-- The fault is that of a whole number with more digits than the limit. -/
def Fault.ExceedsLimit : Fault → Prop
  | .tooManyDigits most count => DigitLimit.most? = some most ∧ most < count
  | _ => False

theorem Numeral.exceedsLimit_of_fault? {n : Numeral} {f : Fault} (h : n.fault? = some f) :
    f.ExceedsLimit := by
  obtain ⟨-, most, hlimit, hlt, rfl⟩ := fault?_eq_some_iff.1 h
  exact ⟨hlimit, hlt⟩

/-- The fault that there is in a literal at the head of a text, behind blanks: too many
    digits. -/
def Text.fault? (text : List Char) : Option Fault :=
  let text := skipBlanks text
  if startsNumber text && !startsHex text then (Numeral.read text).1.fault? else none

theorem Text.exceedsLimit_of_fault? {text : List Char} {f : Fault} (h : fault? text = some f) :
    f.ExceedsLimit := by
  rw [fault?] at h
  split at h
  · exact Numeral.exceedsLimit_of_fault? h
  · cases h

theorem Text.fault?_of_skipBlanks {text text' : List Char}
    (h : skipBlanks text' = skipBlanks text) : fault? text' = fault? text := by
  rw [fault?, fault?, h]

theorem Text.fault?_skipBlanks (text : List Char) : fault? (skipBlanks text) = fault? text :=
  fault?_of_skipBlanks (skipBlanks_skipBlanks text)

/-- If reading runs into a fault, it is that of too many digits. -/
def Snag.IsOfReading : Snag → Prop
  | .failure _ => True
  | .fault f => f.ExceedsLimit

/-- Nothing interrupts the scanner but too many digits. -/
def Scan.Limited {α : Type} (x : Scan α) (text : List Char) : Prop :=
  Ends x text (fun _ _ => True) fun snag _ => snag.IsOfReading

namespace Scan

theorem Limited.bind {α β : Type} {x : Scan α} {f : α → Scan β} {text : List Char}
    (h : x.Limited text) (hf : ∀ a rest, (f a).Limited rest) : (x >>= f).Limited text :=
  ends_bind.2 (h.mono (fun a rest _ => hf a rest) fun _ _ h => h)

theorem limited_of_kind? {α : Type} {x : Scan α} {text : List Char} {Q : α → List Char → Prop}
    {kind : ErrorKind} (h : Ends x text Q fun snag _ => snag.kind? = some kind) :
    x.Limited text := by
  refine h.mono (fun _ _ _ => trivial) fun snag _ hsnag => ?_
  cases snag with
  | failure f => trivial
  | fault f => cases hsnag

end Scan

namespace Quantity

/-- Reading a literal ends in the fault there is at the head of the text, if any. -/
theorem ends_readLiteral_fault? (text : List Char) :
    Ends readLiteral text (fun _ _ => Text.fault? text = none)
      fun snag _ => Text.fault? text = snag.fault? := by
  refine ends_bind.2 (ends_modify.2 (ends_bind.2 (ends_get.2 ?_)))
  split
  · rename_i hhex
    exact if_neg (by simp [hhex])
  · rename_i hhex
    split
    · rename_i hnumber
      rw [Bool.not_eq_true'] at hnumber
      exact if_neg (by simp [hnumber])
    · rename_i hnumber
      have hfault : Text.fault? text = (Numeral.read (Text.skipBlanks text)).1.fault? :=
        if_pos (by simpa [hhex] using hnumber)
      rw [hfault]
      refine ends_bind.2 (ends_set.2 (ends_bind.2 (ends_takeNumeral (fun hfits => ?_)
        fun f h => h)))
      refine (readSuffix_keeps _ _ _).mono (fun _ _ _ => hfits) fun snag _ hsnag => ?_
      rw [Snag.fault?_of_kind? hsnag]
      exact hfits

theorem limited_readLiteral (text : List Char) : readLiteral.Limited text := by
  refine (ends_readLiteral_fault? text).mono (fun _ _ _ => trivial) fun snag _ h => ?_
  cases snag with
  | failure f => trivial
  | fault f => exact Text.exceedsLimit_of_fault? h

theorem limited_readTarget (text : List Char) : readTarget.Limited text := by
  refine ends_bind.2 (ends_modify.2 (ends_bind.2 (ends_get.2 ?_)))
  split
  · exact limited_readLiteral _
  · refine ends_bind.2 (ends_modify.2 ((limited_of_kind? (readMeasure_keeps _ _)).bind
      fun q _ => ends_bind.2 (ends_get.2 ?_)))
    split <;> trivial

theorem limited_readName (store : Store) (text : List Char) : (readName store).Limited text := by
  refine ends_bind.2 (ends_modify.2 (ends_bind.2 (ends_get.2 ?_)))
  dsimp only
  split
  · trivial
  · refine ends_bind.2 (ends_modify.2 (Limited.bind ?_ fun q rest => ?_))
    · refine ends_bind.2 (ends_get.2 ?_)
      split
      · exact ends_bind.2 (ends_modify.2 (limited_of_kind? (readMeasure_keeps _ _)))
      · trivial
    · refine ends_bind.2 (ends_get.2 ?_)
      split
      · exact ends_bind.2 (ends_modify.2 ((limited_readLiteral _).bind fun _ _ => trivial))
      · trivial

end Quantity

end Reckoner
