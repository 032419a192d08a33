import Reckoner.Proofs.Phrase.Words
import Reckoner.Text.Cursor

/-!
# Going through a text

Whatever is called on a cursor, and with whatever numbers, it only ever advances
(`exists_step_eq_advance`): the text stays the same, and the place goes neither back nor
beyond the end. So it is along all histories of calls (`history_disciplined`), where looking
does not move the place, and the characters that are taken are those passed.

How many these are is a matter of slices: `n` characters from a place on are a slice of the
text (`take_eq_slice`), which ends in front of the place for a negative `n` and so has no
characters. But where it would end in front of the start, it ends as far in front of the end of
the text instead, and has some as long as that is behind the place (`take_eq_first_iff`).

At a place, the unit and the operator that the text ahead begins with are the ones with the
longest spelling, in whichever order these are listed (`lookups_longest`).
-/

namespace Reckoner.Text

/-! ## Slices -/

/-- Where the place `i` is in a text. One in front of its start is as far in front of its end,
    or at the start if the text is too short. -/
def placeOf (text : List Char) (i : Int) : Nat :=
  (if i < 0 then i + text.length else i).toNat

/-- The characters of a text from one place to another. -/
def slice (text : List Char) (start stop : Int) : List Char :=
  text.extract (placeOf text start) (placeOf text stop)

namespace Cursor

/-! ## Places -/

theorem length_text (c : Cursor) : c.text.length = c.offset + c.rest.length := by
  simp [text, offset]

/-- What is ahead is told from the text and the offset. -/
theorem drop_text (c : Cursor) : c.text.drop c.offset = c.rest := by
  rw [text, offset, ← List.length_reverse, List.drop_left]

@[simp]
theorem text_ofText (text : List Char) (offset : Int) : (ofText text offset).text = text :=
  text_advance ⟨[], text⟩ _

theorem offset_ofText (text : List Char) (offset : Int) :
    ((ofText text offset).offset : Int) = max 0 (min offset text.length) := by
  have hoffset : (ofText text offset).offset = 0 + min offset.toNat text.length :=
    offset_advance ⟨[], text⟩ _
  omega

theorem offset_consume (c : Cursor) (n : Int) :
    ((c.consume n).offset : Int) = min (c.text.length : Int) (c.offset + max 0 n) := by
  have hlength := c.length_text
  rw [consume, offset_advance]
  omega

/-- The characters passed are those between the two places. -/
theorem extract_advance (c : Cursor) (n : Nat) :
    c.text.extract c.offset (c.advance n).offset = c.rest.take n := by
  rw [List.extract_eq_take_drop, drop_text, offset_advance, Nat.add_sub_cancel_left,
    ← List.take_eq_take_min]

/-! ## Taking -/

theorem take_eq_slice (c : Cursor) (n : Int) :
    (c.take n).1 = slice c.text c.offset (c.offset + n) := by
  have hstart : placeOf c.text c.offset = c.offset := by
    rw [placeOf, if_neg (by omega), Int.toNat_natCast]
  have hreach : placeOf c.text (c.offset + n) - c.offset = c.reach n := by
    rw [placeOf, reach]
    split <;> omega
  rw [slice, hstart, List.extract_eq_take_drop, drop_text, hreach]
  rfl

/-- The first characters ahead are taken, none for a negative number; but some are for one that
    goes back beyond the start, by less than all of the text. -/
theorem take_eq_first_iff (c : Cursor) (n : Int) :
    (c.take n).1 = c.rest.take n.toNat ↔ ¬(-(c.text.length : Int) < n ∧ n < -(c.offset : Int)) := by
  have hlength := c.length_text
  change c.rest.take (c.reach n) = _ ↔ _
  rw [reach]
  split
  · have hnone : n.toNat = 0 := by omega
    rw [hnone, List.take_zero, List.take_eq_nil_iff, ← List.length_eq_zero_iff]
    omega
  · exact iff_of_true rfl (by omega)

/-! ## One call -/

/-- The calls that only look. -/
def Call.looks : Call → Bool
  | .consume _ | .take _ | .takeToken | .skipBlanks => false
  | _ => true

/-- The calls that answer with characters they pass. -/
def Call.takes : Call → Bool
  | .take _ | .takeToken => true
  | _ => false

/-- What a call does to a cursor in `text`, and answers, by the places that it is made at and
    that it leaves. -/
structure Step.IsDisciplined (text : List Char) (s : Step) : Prop where
  text_before : s.before.text = text
  text_after : s.after.text = text
  offset_le : s.before.offset ≤ s.after.offset
  offset_le_length : s.after.offset ≤ text.length
  looking : s.call.looks = true → s.after = s.before
  taking : s.call.takes = true →
    s.answer = .text (text.extract s.before.offset s.after.offset)
  /-- As many characters are passed as there are, none for a negative number. -/
  consuming (n : Int) : s.call = .consume n →
    (s.after.offset : Int) = min (text.length : Int) (s.before.offset + max 0 n)
  slicing (n : Int) : s.call = .take n →
    s.answer = .text (slice text s.before.offset (s.before.offset + n))
  /-- The first characters are taken, none for a negative number; but some are for one that goes
      back beyond the start, by less than all of the text. -/
  first_iff (n : Int) : s.call = .take n →
    (s.answer = .text ((text.drop s.before.offset).take n.toNat) ↔
      ¬(-(text.length : Int) < n ∧ n < -(s.before.offset : Int)))
  /-- The token is all up to the next blank. -/
  upToBlank : s.call = .takeToken → s.answer = .text (token (text.drop s.before.offset))
  /-- The blanks are passed, and no more. -/
  skipping : s.call = .skipBlanks →
    text.drop s.after.offset = Text.skipBlanks (text.drop s.before.offset)

theorem advance_zero (c : Cursor) : c.advance 0 = c := rfl

/-- A call advances the cursor, if it does anything to it. -/
theorem exists_step_eq_advance (c : Cursor) (call : Call) :
    ∃ n, (c.step call).after = c.advance n := by
  cases call with
  | consume n => exact ⟨n.toNat, rfl⟩
  | take n => exact ⟨c.reach n, rfl⟩
  | takeToken => exact ⟨(token c.rest).length, rfl⟩
  | skipBlanks => exact ⟨(c.rest.takeWhile isBlank).length, rfl⟩
  | _ => exact ⟨0, c.advance_zero⟩

/-- The characters of a token are the first ones. -/
theorem take_length_token (text : List Char) : text.take (token text).length = token text :=
  (List.prefix_iff_eq_take.1 (List.takeWhile_prefix _)).symm

theorem text_step (c : Cursor) (call : Call) : (c.step call).after.text = c.text := by
  obtain ⟨n, hafter⟩ := c.exists_step_eq_advance call
  rw [hafter, text_advance]

theorem offset_le_offset_step (c : Cursor) (call : Call) :
    c.offset ≤ (c.step call).after.offset := by
  obtain ⟨n, hafter⟩ := c.exists_step_eq_advance call
  rw [hafter]
  exact c.offset_le_offset_advance n

theorem step_of_looks (c : Cursor) {call : Call} (h : call.looks = true) :
    (c.step call).after = c := by
  cases call with
  | consume | take | takeToken | skipBlanks => cases h
  | _ => rfl

/-- The characters that are taken are those passed. -/
theorem answer_of_takes (c : Cursor) {call : Call} (h : call.takes = true) :
    (c.step call).answer = .text (c.text.extract c.offset (c.step call).after.offset) := by
  cases call with
  | take n => exact congrArg Answer.text (c.extract_advance (c.reach n)).symm
  | takeToken =>
    have htoken := c.extract_advance (token c.rest).length
    rw [take_length_token] at htoken
    exact congrArg Answer.text htoken.symm
  | _ => cases h

theorem isDisciplined_step (c : Cursor) (call : Call) : (c.step call).IsDisciplined c.text where
  text_before := rfl
  text_after := c.text_step call
  offset_le := c.offset_le_offset_step call
  offset_le_length := c.text_step call ▸ offset_le_length_text _
  looking := c.step_of_looks
  taking := c.answer_of_takes
  consuming n hcall := by
    obtain rfl : call = .consume n := hcall
    exact c.offset_consume n
  slicing n hcall := by
    obtain rfl : call = .take n := hcall
    exact congrArg Answer.text (c.take_eq_slice n)
  first_iff n hcall := by
    obtain rfl : call = .take n := hcall
    change Answer.text _ = .text ((c.text.drop c.offset).take _) ↔ _
    rw [Answer.text.injEq, drop_text]
    exact c.take_eq_first_iff n
  upToBlank hcall := by
    obtain rfl : call = .takeToken := hcall
    exact congrArg (Answer.text ∘ token) c.drop_text.symm
  skipping hcall := by
    obtain rfl : call = .skipBlanks := hcall
    calc c.text.drop c.skipBlanks.offset
        = c.skipBlanks.rest := by
          rw [← drop_text, skipBlanks, text_advance]
      _ = Text.skipBlanks (c.text.drop c.offset) := by
          rw [rest_skipBlanks, drop_text]

/-! ## Histories -/

variable {s : Step}

theorem map_call_history (c : Cursor) (calls : List Call) :
    (c.history calls).map Step.call = calls := by
  induction calls generalizing c with
  | nil => rfl
  | cons call calls ih => exact congrArg (call :: ·) (ih _)

theorem isDisciplined_of_mem_history {c : Cursor} {calls : List Call}
    (h : s ∈ c.history calls) : s.IsDisciplined c.text := by
  induction calls generalizing c with
  | nil => cases h
  | cons call calls ih =>
    have hstep := c.isDisciplined_step call
    rcases List.mem_cons.1 h with rfl | hmem
    · exact hstep
    · exact hstep.text_after ▸ ih hmem

/-- The places along a history only go on. -/
theorem pairwise_offset_history (c : Cursor) (calls : List Call) :
    (c.offset :: (c.history calls).map fun s => s.after.offset).Pairwise (· ≤ ·) := by
  induction calls generalizing c with
  | nil => exact List.pairwise_singleton _ _
  | cons call calls ih =>
    have hle := (c.isDisciplined_step call).offset_le
    have hrest := ih (c.step call).after
    refine List.pairwise_cons.2 ⟨fun offset hoffset => ?_, hrest⟩
    rcases List.mem_cons.1 hoffset with rfl | hmem
    · exact hle
    · exact Nat.le_trans hle (List.rel_of_pairwise_cons hrest hmem)

/-- From any offset, and whatever is called: the cursor starts in the text, all calls are answered
    in turn, the places only go on, and each call is disciplined. -/
theorem history_disciplined (text : List Char) (offset : Int) (calls : List Call) :
    let start := ofText text offset
    start.text = text ∧ (start.offset : Int) = max 0 (min offset text.length) ∧
      (start.history calls).map Step.call = calls ∧
      (start.offset :: (start.history calls).map fun s => s.after.offset).Pairwise (· ≤ ·) ∧
      ∀ s ∈ start.history calls, s.IsDisciplined text := by
  intro start
  have htext : start.text = text := text_ofText text offset
  refine ⟨htext, offset_ofText text offset, start.map_call_history calls,
    start.pairwise_offset_history calls, fun s hs => ?_⟩
  exact htext ▸ isDisciplined_of_mem_history hs

/-- A slice that would end in front of the start of the text ends in front of its end. -/
theorem slice_from_the_end :
    let s := (ofText "ab cd".toList 2).step (.take (-3))
    s ∈ (ofText "ab cd".toList (-1)).history [.consume 2, .take (-1), .take (-3)] ∧
      s.IsDisciplined "ab cd".toList ∧ s.answer = .text " c".toList := by
  intro s
  have hmem : s ∈ (ofText "ab cd".toList (-1)).history [.consume 2, .take (-1), .take (-3)] := by
    decide
  obtain ⟨-, -, -, -, hall⟩ :=
    history_disciplined "ab cd".toList (-1) [.consume 2, .take (-1), .take (-3)]
  exact ⟨hmem, hall s hmem, (hall s hmem).slicing (-3) rfl⟩

/-- Taking a negative number of characters at the start takes all but as many at the end, and
    not none. -/
theorem negative_number_taken :
    ∃ s ∈ (ofText "abc".toList 0).history [.take (-1)], s.call = .take (-1) ∧
      s.answer = .text "ab".toList ∧ s.after.offset = 2 ∧
      s.answer ≠ .text (("abc".toList.drop s.before.offset).take (-1 : Int).toNat) := by
  refine ⟨(ofText "abc".toList 0).step (.take (-1)), List.mem_cons_self, rfl, ?_⟩
  decide

/-! ## Lookups -/

/-- At any place of a text, the unit and the operator found are the ones with the longest spelling
    that the text ahead begins with, and none is found where it begins with none; in whichever
    order the units and the operators are listed. -/
theorem lookups_longest {units : List Measure.Spelling} {operators : List Operator}
    (hunits : units.Perm Measure.Spelling.table) (hoperators : operators.Perm Operator.table)
    (text : List Char) (offset : Int) :
    let ahead := (ofText text offset).rest
    (∀ s, Measure.Spelling.begins? ahead = some s ↔
        IsLongestMatch Measure.Spelling.spelling Measure.Spelling.table ahead s) ∧
      (Measure.Spelling.begins? ahead = none ↔
        ∀ s ∈ Measure.Spelling.table, ¬s.spelling.toList <+: ahead) ∧
      longestMatch Measure.Spelling.spelling units ahead = Measure.Spelling.begins? ahead ∧
      (∀ o, Operator.begins? ahead = some o ↔
        IsLongestMatch Operator.spelling Operator.table ahead o) ∧
      (Operator.begins? ahead = none ↔ ∀ o ∈ Operator.table, ¬o.spelling.toList <+: ahead) ∧
      longestMatch Operator.spelling operators ahead = Operator.begins? ahead :=
  ⟨fun _ => longestMatch_eq_some_iff Measure.Spelling.nodup_spelling, longestMatch_eq_none_iff,
    longestMatch_perm Measure.Spelling.nodup_spelling hunits,
    fun _ => longestMatch_eq_some_iff Operator.nodup_spelling, longestMatch_eq_none_iff,
    longestMatch_perm Operator.nodup_spelling hoperators⟩

/-- Minutes are neither miles nor meters, and the operator of the same word is found at the same
    place, also with both tables listed backwards. -/
theorem minutes_looked_up :
    Measure.Spelling.table.reverse.Perm Measure.Spelling.table ∧
      Operator.table.reverse.Perm Operator.table ∧
      (longestMatch Measure.Spelling.spelling Measure.Spelling.table.reverse
        (ofText "5 minutes".toList 2).rest).map Measure.Spelling.description = some "minutes" ∧
      (longestMatch Operator.spelling Operator.table.reverse
        (ofText "5 minutes".toList 2).rest).map Operator.description = some "smaller of two" := by
  have hunits := List.reverse_perm Measure.Spelling.table
  have hoperators := List.reverse_perm Operator.table
  obtain ⟨-, -, hunit, -, -, hoperator⟩ :=
    lookups_longest hunits hoperators "5 minutes".toList 2
  refine ⟨hunits, hoperators, ?_⟩
  rw [hunit, hoperator]
  decide +kernel

end Cursor

end Reckoner.Text
