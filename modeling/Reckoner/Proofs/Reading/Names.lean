import Reckoner.Proofs.Phrase.Words

/-!
# Reading names

A run of letters is read as a name, up to where something else than a letter
follows (`Quantity.readName_append`). Behind a name, only a single colon and `=`
in front of a digit or a sign belong to it; with neither, the name is an operand
as it stands in the store (`Quantity.readName_operand`).

Operators are looked for before names, so that a name can only be written if it
does not begin with the spelling of one (`Text.IsWritable`).
-/

namespace Reckoner

open Text

namespace Text

/-- A name is a run of letters. -/
structure IsName (name : String) : Prop where
  ne_empty : name ≠ ""
  isAlpha : ∀ c ∈ name.toList, c.isAlpha = true

/-- Letters are in two ranges. -/
theorem range_of_isAlpha {c : Char} (h : c.isAlpha = true) :
    65 ≤ c.toNat ∧ c.toNat ≤ 90 ∨ 97 ≤ c.toNat ∧ c.toNat ≤ 122 := by
  rcases Bool.or_eq_true_iff.1 h with hupper | hlower
  · exact .inl (of_decide_eq_true hupper)
  · obtain ⟨hle, hle'⟩ := Bool.and_eq_true_iff.1 hlower
    exact .inr ⟨of_decide_eq_true hle, of_decide_eq_true hle'⟩

theorem isBlank_of_isAlpha {c : Char} (h : c.isAlpha = true) : isBlank c = false := by
  have hrange := range_of_isAlpha h
  refine Bool.eq_false_iff.2 fun hblank => ?_
  simp only [isBlank, Bool.or_eq_true, Bool.and_eq_true, beq_iff_eq, decide_eq_true_eq] at hblank
  rcases hblank with rfl | ⟨-, hblank⟩
  · exact absurd hrange (by decide)
  · have hblank : c.toNat ≤ 13 := hblank
    omega

theorem isDigit_of_isAlpha {c : Char} (h : c.isAlpha = true) : c.isDigit = false := by
  have hrange := range_of_isAlpha h
  refine Bool.eq_false_iff.2 fun hdigit => ?_
  have hdigit : c.toNat ≤ 57 := of_decide_eq_true (Bool.and_eq_true_iff.1 hdigit).2
  omega

theorem IsName.exists_cons {name : String} (h : IsName name) :
    ∃ c rest, name.toList = c :: rest ∧ c.isAlpha = true := by
  obtain ⟨c, rest, hname⟩ := List.exists_cons_of_ne_nil (l := name.toList) fun hnil =>
    h.ne_empty (String.toList_injective hnil)
  exact ⟨c, rest, hname, h.isAlpha c (hname ▸ List.mem_cons_self)⟩

theorem IsName.atToken {name : String} (h : IsName name) : AtToken name.toList := by
  obtain ⟨c, rest, hname, hc⟩ := h.exists_cons
  exact ⟨c, rest, hname, isBlank_of_isAlpha hc⟩

theorem IsName.letters_append {name : String} (h : IsName name) {behind : List Char}
    (hbehind : startsLetter behind = false) : letters (name.toList ++ behind) = name.toList := by
  have hend : behind.takeWhile Char.isAlpha = [] := by
    cases behind with
    | nil => rfl
    | cons c rest => exact List.takeWhile_cons_of_neg (by simpa [startsLetter] using hbehind)
  rw [letters, List.takeWhile_append_of_pos h.isAlpha, hend, List.append_nil]

theorem IsName.startsNumber_append {name : String} (h : IsName name) (behind : List Char) :
    startsNumber (name.toList ++ behind) = false := by
  obtain ⟨c, rest, hname, hc⟩ := h.exists_cons
  have hne : c ≠ '-' ∧ c ≠ '.' := by constructor <;> rintro rfl <;> cases hc
  rw [hname]
  simp [startsNumber, isDigit_of_isAlpha hc, hne]

/-! ## Names that can be written -/

/-- A name that no operator is spelled like, or like the first letters of. -/
structure IsWritable (name : String) : Prop extends IsName name where
  not_operator : ∀ o ∈ Operator.table, startsWith o.spelling name.toList = false

instance (name : String) : Decidable (IsWritable name) :=
  decidable_of_iff ((name ≠ "" ∧ name.toList.all Char.isAlpha = true) ∧
      ∀ o ∈ Operator.table, startsWith o.spelling name.toList = false)
    ⟨fun h => ⟨⟨h.1.1, List.all_eq_true.1 h.1.2⟩, h.2⟩,
      fun h => ⟨⟨h.ne_empty, List.all_eq_true.2 h.isAlpha⟩, h.not_operator⟩⟩

/-- No operator goes on beyond the letters of a name, unless with a digit. -/
theorem IsWritable.begins?_append {name : String} (h : IsWritable name) {behind : List Char}
    (hbehind : ∀ c ∈ behind.head?, c.isAlphanum = false) :
    Operator.begins? (name.toList ++ behind) = none := by
  have hspelling : ∀ o ∈ Operator.table, startsLetter o.spelling.toList = true →
      o.spelling.toList.all Char.isAlphanum = true := by decide +kernel
  obtain ⟨c, rest, hname, hc⟩ := h.exists_cons
  refine longestMatch_eq_none fun o ho => ?_
  cases hletter : startsLetter o.spelling.toList with
  | true =>
    rw [startsWith_append fun d hd hmem => ?_]
    · exact h.not_operator o ho
    · have hd' := List.all_eq_true.1 (hspelling o ho hletter) d hmem
      exact Bool.false_ne_true ((hbehind d hd).symm.trans hd')
  | false =>
    refine Bool.eq_false_iff.2 fun hstarts => ?_
    obtain ⟨d, spelling, hspelling, -⟩ := Operator.atToken ho
    obtain ⟨rest', hrest⟩ := startsWith_iff.1 hstarts
    rw [hspelling, hname] at hrest
    obtain rfl : d = c := (List.cons.inj hrest).1
    rw [hspelling] at hletter
    exact Bool.false_ne_true (hletter.symm.trans hc)

/-- The names of constants can be written. -/
theorem isWritable_constant {c : Constant} (h : c ∈ Constant.table) : IsWritable c.name := by
  have hname : ∀ c ∈ Constant.table, c.name ≠ "" := by decide
  have halpha : ∀ c ∈ Constant.table, c.name.toList.all Char.isAlpha = true := by decide
  have hoperator : ∀ c ∈ Constant.table, ∀ o ∈ Operator.table,
      startsWith o.spelling c.name.toList = false := by decide +kernel
  exact ⟨⟨hname c h, List.all_eq_true.1 (halpha c h)⟩, hoperator c h⟩

end Text

/-! ## Reading on behind a name -/

namespace Quantity

variable {name : String} {behind : List Char}

variable [DigitLimit]

/-- Behind the letters, a name is read on with its value. -/
theorem readName_append (store : Store) (h : IsName name)
    (hbehind : startsLetter behind = false) :
    readName store (name.toList ++ behind) =
      ((named store name).readNameMeasure >>= readAssignment) behind := by
  have hdrop : Scan.drop name.toList.length (name.toList ++ behind) = .ok ⟨⟩ behind :=
    congrArg (EStateM.Result.ok PUnit.unit) List.drop_left
  refine (bind_of_ok (skipBlanks_token h.atToken behind)).trans
    ((bind_of_ok (y := get) rfl).trans ?_)
  rw [h.letters_append hbehind, String.ofList_toList, if_neg (by simpa using h.ne_empty)]
  exact bind_of_ok hdrop

/-- With neither a unit nor a value behind it, a name is an operand. -/
theorem readName_operand (store : Store) (h : IsName name) (hbehind : startsLetter behind = false)
    (hmeasure : startsMeasure behind = false) (hassignment : startsAssignment behind = false) :
    readName store (name.toList ++ behind) = .ok (.operand (named store name)) behind := by
  have hnamed : (named store name).readNameMeasure behind = .ok (named store name) behind := by
    refine (bind_of_ok (y := get) rfl).trans ?_
    rw [hmeasure]
    rfl
  have hoperand : (named store name).readAssignment behind =
      .ok (.operand (named store name)) behind := by
    refine (bind_of_ok (y := get) rfl).trans ?_
    rw [hassignment]
    rfl
  rw [readName_append store h hbehind, bind_of_ok hnamed, hoperand]

end Quantity

end Reckoner
