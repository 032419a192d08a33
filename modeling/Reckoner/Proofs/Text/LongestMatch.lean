import Mathlib.Data.List.Nodup
import Reckoner.Text.LongestMatch

/-!
# Longest matches

The entry found at a text is one of the table, and the text begins with its
spelling (`mem_of_longestMatch`, `startsWith_of_longestMatch`); no other spelling
that the text begins with is longer (`exists_longestMatch`). If no two entries
are spelled alike, all others that the text begins with are shorter, so that the
one found is told from the text and the table (`longestMatch_eq_some_iff`), in
whichever order that is listed (`longestMatch_perm`); and each entry is found at
its own spelling (`longestMatch_self`). None is found only where the text begins
with no spelling (`longestMatch_eq_none_iff`).

Which entry is found only depends on which spellings the text begins with
(`longestMatch_congr`); so what follows the text makes no difference if no
spelling goes on with its first character (`longestMatch_stop`), or has it at
all (`longestMatch_append`).
-/

namespace Reckoner.Text

variable {α : Type} {spelling : α → String} {table : List α} {text text' behind : List Char} {e : α}

theorem startsWith_iff {s : String} : startsWith s text = true ↔ s.toList <+: text := by
  rw [startsWith, List.isPrefixOf_iff_prefix]

/-- What follows a text is no part of a spelling that does not go on with its first
    character there. -/
theorem startsWith_stop {s : String} (h : ∀ c ∈ behind.head?, ¬text ++ [c] <+: s.toList) :
    startsWith s (text ++ behind) = startsWith s text := by
  refine Bool.eq_iff_iff.2 ⟨fun hstarts => ?_, fun hstarts => ?_⟩
  · rw [startsWith_iff] at hstarts ⊢
    rcases Nat.lt_or_ge text.length s.toList.length with hlt | hle
    · -- The spelling would go on beyond the text.
      obtain - | ⟨c, rest⟩ := behind
      · rwa [List.append_nil] at hstarts
      · have hnext : text ++ [c] <+: text ++ c :: rest := ⟨rest, by simp⟩
        have hlong := List.prefix_of_prefix_length_le hnext hstarts (by
          rw [List.length_append]
          exact hlt)
        exact absurd hlong (h c rfl)
    · exact List.prefix_of_prefix_length_le hstarts (List.prefix_append _ _) hle
  · rw [startsWith_iff] at hstarts ⊢
    exact hstarts.trans (List.prefix_append _ _)

/-- What follows a text is no part of a spelling that does not have its first
    character. -/
theorem startsWith_append {s : String} (h : ∀ c ∈ behind.head?, c ∉ s.toList) :
    startsWith s (text ++ behind) = startsWith s text :=
  startsWith_stop fun c hc hlong =>
    h c hc (hlong.subset (List.mem_append_right _ (List.mem_singleton.2 rfl)))

theorem longer_eq_some {best : Option α} {entry : α}
    (h : longer spelling text best entry = some e) :
    best = some e ∨ (entry = e ∧ startsWith (spelling e) text = true) := by
  rw [longer] at h
  split at h
  · rename_i hc
    cases h
    exact .inr ⟨rfl, (Bool.and_eq_true_iff.1 hc).1⟩
  · exact .inl h

theorem foldl_longer_eq_some {best : Option α}
    (h : table.foldl (longer spelling text) best = some e) :
    best = some e ∨ (e ∈ table ∧ startsWith (spelling e) text = true) := by
  induction table generalizing best with
  | nil => exact .inl h
  | cons entry table ih =>
    rcases ih h with hbest | ⟨hmem, hstarts⟩
    · rcases longer_eq_some hbest with hbest | ⟨rfl, hstarts⟩
      · exact .inl hbest
      · exact .inr ⟨List.mem_cons_self, hstarts⟩
    · exact .inr ⟨List.mem_cons_of_mem _ hmem, hstarts⟩

theorem mem_of_longestMatch (h : longestMatch spelling table text = some e) : e ∈ table :=
  ((foldl_longer_eq_some h).resolve_left (by simp)).1

theorem startsWith_of_longestMatch (h : longestMatch spelling table text = some e) :
    startsWith (spelling e) text = true :=
  ((foldl_longer_eq_some h).resolve_left (by simp)).2

/-- The best entry is given up for a longer one only. -/
theorem exists_longer_of_some (spelling : α → String) (text : List Char) (best entry : α) :
    ∃ best', longer spelling text (some best) entry = some best' ∧
      (spelling best).length ≤ (spelling best').length := by
  rw [longer]
  split
  · rename_i hlonger
    simp only [Option.all_some, Bool.and_eq_true, decide_eq_true_eq] at hlonger
    exact ⟨entry, rfl, Nat.le_of_lt hlonger.2⟩
  · exact ⟨best, rfl, Nat.le_refl _⟩

/-- An entry that matches is taken, unless the best one is as long. -/
theorem exists_longer_of_startsWith {entry : α} (best : Option α)
    (h : startsWith (spelling entry) text = true) :
    ∃ best', longer spelling text best entry = some best' ∧
      (spelling entry).length ≤ (spelling best').length := by
  rw [longer, h, Bool.true_and]
  cases best with
  | none => exact ⟨entry, rfl, Nat.le_refl _⟩
  | some best =>
    by_cases hlt : (spelling best).length < (spelling entry).length
    · exact ⟨entry, by simp [hlt], Nat.le_refl _⟩
    · exact ⟨best, by simp [hlt], Nat.not_lt.1 hlt⟩

theorem exists_foldl_longer_of_some (spelling : α → String) (table : List α) (text : List Char)
    (best : α) :
    ∃ best', table.foldl (longer spelling text) (some best) = some best' ∧
      (spelling best).length ≤ (spelling best').length := by
  induction table generalizing best with
  | nil => exact ⟨best, rfl, Nat.le_refl _⟩
  | cons entry table ih =>
    obtain ⟨best₁, hstep, hle⟩ := exists_longer_of_some spelling text best entry
    obtain ⟨best', hfold, hle'⟩ := ih best₁
    exact ⟨best', by rw [List.foldl_cons, hstep, hfold], Nat.le_trans hle hle'⟩

/-- Where an entry matches, one is found, and that one is as long at least. -/
theorem exists_longestMatch (he : e ∈ table) (h : startsWith (spelling e) text = true) :
    ∃ best, longestMatch spelling table text = some best ∧
      (spelling e).length ≤ (spelling best).length := by
  simp only [longestMatch]
  generalize (none : Option α) = start
  induction table generalizing start with
  | nil => cases he
  | cons entry table ih =>
    rw [List.foldl_cons]
    rcases List.mem_cons.1 he with rfl | he
    · obtain ⟨best₁, hstep, hle⟩ := exists_longer_of_startsWith start h
      obtain ⟨best, hfold, hle'⟩ := exists_foldl_longer_of_some spelling table text best₁
      exact ⟨best, by rw [hstep, hfold], Nat.le_trans hle hle'⟩
    · exact ih he _

theorem longestMatch_eq_none_iff :
    longestMatch spelling table text = none ↔ ∀ e ∈ table, ¬(spelling e).toList <+: text := by
  constructor
  · intro hnone e he hbegins
    obtain ⟨best, hbest, -⟩ := exists_longestMatch he (startsWith_iff.2 hbegins)
    rw [hnone] at hbest
    cases hbest
  · intro hnone
    cases hfound : longestMatch spelling table text with
    | none => rfl
    | some e =>
      have hstarts := startsWith_iff.1 (startsWith_of_longestMatch hfound)
      exact absurd hstarts (hnone e (mem_of_longestMatch hfound))

/-! ## The one longest match -/

/-- The text begins with the spelling of the entry, and all other entries of the table that it
    begins with are shorter. -/
structure IsLongestMatch (spelling : α → String) (table : List α) (text : List Char) (e : α) :
    Prop where
  mem : e ∈ table
  begins : (spelling e).toList <+: text
  shorter : ∀ other ∈ table, other ≠ e → (spelling other).toList <+: text →
    (spelling other).length < (spelling e).length

/-- The order of the table makes no difference. -/
theorem isLongestMatch_perm {table' : List α} (h : table'.Perm table) :
    IsLongestMatch spelling table' text e ↔ IsLongestMatch spelling table text e :=
  ⟨fun ⟨mem, begins, shorter⟩ =>
      ⟨h.mem_iff.1 mem, begins, fun other hother => shorter other (h.mem_iff.2 hother)⟩,
    fun ⟨mem, begins, shorter⟩ =>
      ⟨h.mem_iff.2 mem, begins, fun other hother => shorter other (h.mem_iff.1 hother)⟩⟩

/-- Two entries that one text begins with are not equally long: they would be spelled alike. -/
theorem length_lt_of_ne {other : α} (hdistinct : (table.map spelling).Nodup)
    (hother : other ∈ table) (he : e ∈ table) (hne : other ≠ e)
    (hobegins : (spelling other).toList <+: text) (hbegins : (spelling e).toList <+: text)
    (hle : (spelling other).length ≤ (spelling e).length) :
    (spelling other).length < (spelling e).length := by
  refine Nat.lt_of_le_of_ne hle fun hlength => hne ?_
  rw [← String.length_toList, ← String.length_toList] at hlength
  have hlong := List.prefix_of_prefix_length_le hobegins hbegins (Nat.le_of_eq hlength)
  have hsame := String.toList_injective (hlong.eq_of_length hlength)
  exact List.inj_on_of_nodup_map hdistinct hother he hsame

/-- If no two entries are spelled alike, the one found is the one longest match. -/
theorem longestMatch_eq_some_iff (hdistinct : (table.map spelling).Nodup) :
    longestMatch spelling table text = some e ↔ IsLongestMatch spelling table text e := by
  constructor
  · intro hfound
    have hbegins := startsWith_iff.1 (startsWith_of_longestMatch hfound)
    refine ⟨mem_of_longestMatch hfound, hbegins, fun other hother hne hobegins => ?_⟩
    obtain ⟨best, hbest, hle⟩ := exists_longestMatch hother (startsWith_iff.2 hobegins)
    obtain rfl : e = best := Option.some.inj (hfound.symm.trans hbest)
    exact length_lt_of_ne hdistinct hother (mem_of_longestMatch hfound) hne hobegins hbegins hle
  · intro h
    obtain ⟨best, hbest, hle⟩ := exists_longestMatch h.mem (startsWith_iff.2 h.begins)
    by_cases hne : best = e
    · rw [hbest, hne]
    · have hbegins := startsWith_iff.1 (startsWith_of_longestMatch hbest)
      have hlt := h.shorter best (mem_of_longestMatch hbest) hne hbegins
      exact absurd hlt (Nat.not_lt.2 hle)

/-- If no two entries are spelled alike, the same one is found in whichever order they are
    listed. -/
theorem longestMatch_perm {table' : List α} (hdistinct : (table.map spelling).Nodup)
    (h : table'.Perm table) :
    longestMatch spelling table' text = longestMatch spelling table text := by
  have hdistinct' : (table'.map spelling).Nodup := (h.map spelling).nodup_iff.2 hdistinct
  refine Option.ext fun e => ?_
  rw [longestMatch_eq_some_iff hdistinct', longestMatch_eq_some_iff hdistinct,
    isLongestMatch_perm h]

/-- At its own spelling, an entry is found. -/
theorem longestMatch_self (hdistinct : (table.map spelling).Nodup) (he : e ∈ table) :
    longestMatch spelling table (spelling e).toList = some e := by
  have hbegins : (spelling e).toList <+: (spelling e).toList := List.prefix_refl _
  refine (longestMatch_eq_some_iff hdistinct).2 ⟨he, hbegins, fun other hother hne hobegins => ?_⟩
  have hle := hobegins.length_le
  rw [String.length_toList, String.length_toList] at hle
  exact length_lt_of_ne hdistinct hother he hne hobegins hbegins hle

/-! ## What the match depends on -/

/-- A match is found alike at texts that begin with the same spellings. -/
theorem longestMatch_congr
    (h : ∀ e ∈ table, startsWith (spelling e) text = startsWith (spelling e) text') :
    longestMatch spelling table text = longestMatch spelling table text' := by
  simp only [longestMatch]
  generalize (none : Option α) = best
  induction table generalizing best with
  | nil => rfl
  | cons entry table ih =>
    have hstep : longer spelling text best entry = longer spelling text' best entry := by
      rw [longer, longer, h entry List.mem_cons_self]
    rw [List.foldl_cons, List.foldl_cons, hstep]
    exact ih (fun e he => h e (List.mem_cons_of_mem _ he)) _

theorem longestMatch_stop
    (h : ∀ e ∈ table, ∀ c ∈ behind.head?, ¬text ++ [c] <+: (spelling e).toList) :
    longestMatch spelling table (text ++ behind) = longestMatch spelling table text :=
  longestMatch_congr fun e he => startsWith_stop (h e he)

theorem longestMatch_append (h : ∀ e ∈ table, ∀ c ∈ behind.head?, c ∉ (spelling e).toList) :
    longestMatch spelling table (text ++ behind) = longestMatch spelling table text :=
  longestMatch_congr fun e he => startsWith_append (h e he)

/-- Without an entry that matches, none is found. -/
theorem longestMatch_eq_none (h : ∀ e ∈ table, startsWith (spelling e) text = false) :
    longestMatch spelling table text = none :=
  longestMatch_eq_none_iff.2 fun e he hbegins =>
    absurd (startsWith_iff.2 hbegins) (Bool.eq_false_iff.1 (h e he))

/-- Where no spelling begins with the first character, none is found. -/
theorem longestMatch_cons {c : Char}
    (h : ∀ e ∈ table, ∃ d rest, (spelling e).toList = d :: rest ∧ d ≠ c) (text : List Char) :
    longestMatch spelling table (c :: text) = none := by
  refine longestMatch_eq_none fun e he => Bool.eq_false_iff.2 fun hstarts => ?_
  obtain ⟨d, rest, hspelling, hne⟩ := h e he
  obtain ⟨behind, hbehind⟩ := startsWith_iff.1 hstarts
  rw [hspelling] at hbehind
  exact hne (List.cons.inj hbehind).1

end Reckoner.Text
