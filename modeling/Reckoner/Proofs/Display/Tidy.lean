import Mathlib.Data.List.DropRight
import Mathlib.Data.Rat.Cast.Lemmas
import Mathlib.Tactic.FieldSimp
import Mathlib.Tactic.Ring
import Reckoner.Display
import Reckoner.Proofs.Display.Printed

/-!
# Tidy numerals

What a real number is shown as in a default format is tidied: the zeros at the end of its
places are taken off, the point with them if nothing is left behind it, and the sign of a
zero. What remains is a numeral of the same value and with the same exponent, and there is
nothing more to tidy (`PrintedNumeral.Tidies`).

So it is for an exponent that is marked by a small letter. A capital one is taken for a part
of the places, and it is the exponent that loses the zeros at its end: then all is well only
if there is nothing to take off, or no point (`PrintedNumeral.tidies_iff`).
-/

namespace Reckoner

open Text

/-! ## Zeros at the end -/

/-- Digits without the zeros at their end. -/
def stripZeros (digits : List Char) : List Char :=
  digits.rdropWhile (· == '0')

/-- What stands in front of another character is not reached from the end. -/
theorem rdropWhile_append_cons {p : Char → Bool} {x : Char} (hx : p x = false)
    (front behind : List Char) :
    (front ++ x :: behind).rdropWhile p = front ++ x :: behind.rdropWhile p := by
  -- Characters come off the end, and the last that can is the first behind `x`.
  induction behind using List.reverseRecOn with
  | nil =>
    rw [List.rdropWhile_concat_neg _ _ _ (by rw [hx]; exact Bool.false_ne_true),
      List.rdropWhile_nil]
  | append_singleton behind y ih =>
    rw [← List.cons_append, ← List.append_assoc, List.rdropWhile_concat, List.rdropWhile_concat, ih]
    split <;> simp

/-- Nothing is taken off a text whose last character is to stay. -/
theorem rdropWhile_eq_self {p : Char → Bool} {text : List Char}
    (h : ∀ c ∈ text.getLast?, p c = false) : text.rdropWhile p = text := by
  rw [List.rdropWhile_eq_self_iff]
  intro hne
  rw [h _ (List.getLast?_eq_some_getLast hne)]
  exact Bool.false_ne_true

theorem stripZeros_eq_self_iff {digits : List Char} :
    stripZeros digits = digits ↔ digits.getLast? ≠ some '0' := by
  refine ⟨fun h hlast => ?_, fun h => rdropWhile_eq_self fun c hc => ?_⟩
  · obtain ⟨front, rfl⟩ := List.getLast?_eq_some_iff.1 hlast
    have hdrop : stripZeros (front ++ ['0']) = stripZeros front :=
      List.rdropWhile_concat_pos _ _ _ rfl
    have hlength := (List.rdropWhile_prefix (· == '0') front).length_le
    rw [← stripZeros, ← hdrop, h, List.length_append] at hlength
    exact absurd hlength (by simp)
  · exact beq_false_of_ne fun hzero => h (hzero ▸ hc)

/-- Nor off one that ends in characters that are to stay. -/
theorem rdropWhile_append_eq_self {p : Char → Bool} (front : List Char) {behind : List Char}
    (hne : behind ≠ []) (h : ∀ c ∈ behind, p c = false) :
    (front ++ behind).rdropWhile p = front ++ behind := by
  refine rdropWhile_eq_self fun c hc => ?_
  rw [List.getLast?_append_of_ne_nil _ hne] at hc
  exact h c (List.mem_of_getLast? hc)

theorem not_isPoint_of_isDigit {c : Char} (h : c.isDigit = true) : (c == '.') = false :=
  beq_false_of_ne (by rintro rfl; cases h)

/-- There are as many zeros at the end as make the digits complete again. -/
theorem exists_stripZeros_append (digits : List Char) :
    ∃ k, digits = stripZeros digits ++ List.replicate k '0' := by
  induction digits using List.reverseRecOn with
  | nil => exact ⟨0, rfl⟩
  | append_singleton digits d ih =>
    rw [stripZeros, List.rdropWhile_concat]
    split
    · rename_i hd
      obtain ⟨k, hk⟩ := ih
      refine ⟨k + 1, ?_⟩
      rw [List.replicate_succ', ← List.append_assoc, ← stripZeros, ← hk, eq_of_beq hd]
    · exact ⟨0, (List.append_nil _).symm⟩

theorem getLast?_stripZeros (digits : List Char) : (stripZeros digits).getLast? ≠ some '0' :=
  stripZeros_eq_self_iff.1 (List.rdropWhile_idempotent _ _)

theorem isDigit_stripZeros {digits : List Char} (h : ∀ c ∈ digits, c.isDigit = true) :
    ∀ c ∈ stripZeros digits, c.isDigit = true := fun c hc =>
  h c ((List.rdropWhile_prefix _ _).subset hc)

theorem valueIn_append_zeros (digits : List Char) (k : Nat) :
    valueIn 10 (digits ++ List.replicate k '0') = valueIn 10 digits * 10 ^ k := by
  induction k with
  | zero => rw [List.replicate_zero, List.append_nil, Nat.pow_zero, Nat.mul_one]
  | succ k ih =>
    have hzero : digitValue '0' = 0 := by decide
    calc valueIn 10 (digits ++ List.replicate (k + 1) '0')
        = 10 * valueIn 10 (digits ++ List.replicate k '0') + digitValue '0' := by
          rw [List.replicate_succ', ← List.append_assoc, valueIn_concat]
      _ = valueIn 10 digits * 10 ^ (k + 1) := by
          rw [ih, hzero]
          ring

/-! ## Tidy mantissas -/

namespace Numeral

/-- The numeral without the zeros at the end of its places. -/
def tidied (n : Numeral) : Numeral :=
  match n.places with
  | none => n
  | some places =>
    if stripZeros places = [] then
      { n with negative := n.negative && n.whole != ['0'], places := none }
    else { n with places := some (stripZeros places) }

/-- There are no places, or they end in another digit than zero. -/
def IsTidy (n : Numeral) : Prop :=
  ∀ places ∈ n.places, places ≠ [] ∧ places.getLast? ≠ some '0'

theorem isTidy_tidied (n : Numeral) : n.tidied.IsTidy := by
  intro places hplaces
  rw [tidied] at hplaces
  cases hn : n.places with
  | none =>
    rw [hn] at hplaces
    cases hn.symm.trans hplaces
  | some p =>
    rw [hn] at hplaces
    dsimp only at hplaces
    split at hplaces
    · cases hplaces
    · rename_i hne
      obtain rfl := Option.some.inj hplaces
      exact ⟨hne, getLast?_stripZeros p⟩

theorem whole_tidied (n : Numeral) : n.tidied.whole = n.whole := by
  rw [tidied]
  split
  · rfl
  · split <;> rfl

theorem isDigit_tidied {n : Numeral} (h : ∀ c ∈ n.places.getD [], c.isDigit = true) :
    ∀ c ∈ n.tidied.places.getD [], c.isDigit = true := by
  rw [tidied]
  cases hn : n.places with
  | none =>
    rw [hn]
    exact List.forall_mem_nil _
  | some p =>
    rw [hn] at h
    dsimp only
    split
    · exact List.forall_mem_nil _
    · exact isDigit_stripZeros h

theorem tidied_of_isTidy {n : Numeral} (h : n.IsTidy) : n.tidied = n := by
  rw [tidied]
  cases hn : n.places with
  | none => rfl
  | some p =>
    obtain ⟨hne, hlast⟩ := h p hn
    have hstrip : stripZeros p = p := stripZeros_eq_self_iff.2 hlast
    dsimp only
    rw [hstrip, if_neg hne, ← hn]

/-- Neither the zeros that are taken off nor the sign of a zero make a difference to the
    value. -/
theorem exact_tidied (n : Numeral) : (n.tidied.exact : ℚ) = n.exact := by
  obtain ⟨negative, whole, places⟩ := n
  cases places with
  | none => rfl
  | some p =>
    obtain ⟨k, hk⟩ := exists_stripZeros_append p
    -- The size is the same; the sign is, too, or that of a zero.
    have hsize : ((valueIn 10 (whole ++ stripZeros p) : ℚ) / 10 ^ (stripZeros p).length) =
        (valueIn 10 (whole ++ p) : ℚ) / 10 ^ p.length := by
      conv_rhs => rw [hk, ← List.append_assoc, valueIn_append_zeros, List.length_append,
        List.length_replicate]
      push_cast
      rw [pow_add]
      field_simp
    rw [tidied]
    dsimp only
    split
    · rename_i hstrip
      rw [hstrip] at hsize
      by_cases hzero : whole = ['0']
      · subst hzero
        have hvalue : valueIn 10 (['0'] ++ []) = 0 := by decide
        simp only [hvalue, Nat.cast_zero, zero_div] at hsize
        simp only [exact, Option.getD_none, Option.getD_some, ← hsize, hvalue, Nat.cast_zero,
          zero_div, neg_zero, ite_self]
      · have hsign : (negative && whole != ['0']) = negative := by simp [hzero]
        simp only [exact, Option.getD_none, Option.getD_some, hsize, hsign]
    · simp only [exact, Option.getD_some, hsize]

end Numeral

/-! ## What is taken off -/

namespace Display

/-- Without a point, nothing is. -/
theorem tidy_of_notMem {text : List Char} (h : '.' ∉ text) : tidy text = text := by
  have hcontains : text.contains '.' = false := by simpa using h
  rw [tidy, hcontains, Bool.not_false, if_pos rfl]

/-- A cut is replaced only if nothing is left, or a zero with a sign. -/
theorem cut_of_mem {cut : List Char} {c : Char} (hmem : c ∈ cut) (hc : c ∉ ['-', '0']) :
    (if cut.isEmpty || cut == ['-', '0'] then ['0'] else cut) = cut := by
  have hne : cut ≠ [] := List.ne_nil_of_mem hmem
  have hzero : cut ≠ ['-', '0'] := fun h => hc (h ▸ hmem)
  rw [if_neg (by simp [hne, hzero])]

/-- Zeros and points are taken off the end of what stands in front of an `e`. -/
theorem tidy_append {front rest cut : List Char} (hpoint : '.' ∈ front) (he : 'e' ∉ front)
    (hrest : ∀ c ∈ rest.head?, c = 'e')
    (hcut : (front.rdropWhile (· == '0')).rdropWhile (· == '.') = cut) :
    tidy (front ++ rest) = (if cut.isEmpty || cut == ['-', '0'] then ['0'] else cut) ++ rest := by
  have hcontains : (front ++ rest).contains '.' = true := by simp [hpoint]
  have hfront : ∀ c ∈ front, (c != 'e') = true := fun c hc => by
    simpa using fun h : c = 'e' => he (h ▸ hc)
  have hhead : (rest.takeWhile (· != 'e')) = [] ∧ rest.dropWhile (· != 'e') = rest := by
    cases rest with
    | nil => exact ⟨rfl, rfl⟩
    | cons c rest =>
      obtain rfl := hrest c rfl
      exact ⟨rfl, rfl⟩
  have hspan : (front ++ rest).span (· != 'e') = (front, rest) := by
    rw [List.span_eq_takeWhile_dropWhile, List.takeWhile_append_of_pos hfront,
      List.dropWhile_append_of_pos hfront, hhead.1, hhead.2, List.append_nil]
  have hends : ((front.reverse.dropWhile (· == '0')).dropWhile (· == '.')).reverse = cut := by
    rw [← hcut, List.rdropWhile, List.rdropWhile, List.reverse_reverse]
  rw [tidy, hcontains, hspan]
  dsimp only
  rw [hends]
  rfl

/-- A real number in the default format is tidied. -/
theorem real_of_shown {default : String} {x : Float} {text : List Char}
    (hspecial : specialText? x = none)
    (hshown : Format.show? default (.real x) = .ok (String.ofList text)) :
    real "" default x = .ok (String.ofList (tidy text)) := by
  have hdefault : ("" == "") = true := rfl
  rw [real, hspecial, hshown]
  dsimp only
  rw [if_pos hdefault]
  exact congrArg (fun text => Except.ok (String.ofList (tidy text))) String.toList_ofList

end Display

namespace PrintedNumeral

variable {n t : PrintedNumeral}

/-- The numeral with a tidy mantissa. -/
def tidied (n : PrintedNumeral) : PrintedNumeral where
  mantissa := n.mantissa.tidied
  exponent := n.exponent
  whole_ne_nil := by
    rw [Numeral.whole_tidied]
    exact n.whole_ne_nil
  isDigit_whole := by
    rw [Numeral.whole_tidied]
    exact n.isDigit_whole
  isDigit_places := Numeral.isDigit_tidied n.isDigit_places

/-- What is left of a mantissa with a point. -/
theorem cut_mantissa {places : List Char} (h : n.mantissa.places = some places) :
    (n.mantissa.text.rdropWhile (· == '0')).rdropWhile (· == '.') =
      if stripZeros places = [] then n.front else n.front ++ '.' :: stripZeros places := by
  rw [mantissa_text_of_some h, rdropWhile_append_cons rfl, ← stripZeros]
  split
  · -- The point goes with the zeros, and what stands in front of it ends in a digit.
    rename_i hstrip
    rw [hstrip, List.rdropWhile_concat_pos _ _ _ rfl]
    exact rdropWhile_append_eq_self _ n.whole_ne_nil fun c hc =>
      not_isPoint_of_isDigit (n.isDigit_whole c hc)
  · rename_i hstrip
    have hplaces : ∀ c ∈ places, c.isDigit = true := fun c hc => n.isDigit_places c (by rwa [h])
    have hstay := rdropWhile_append_eq_self (n.front ++ ['.']) hstrip fun c hc =>
      not_isPoint_of_isDigit (isDigit_stripZeros hplaces c hc)
    rwa [List.append_assoc] at hstay

theorem front_ne_nil (n : PrintedNumeral) : n.front ≠ [] := fun h =>
  n.whole_ne_nil (List.append_eq_nil_iff.1 h).2

/-- A zero with a sign. -/
theorem front_eq_iff : n.front = ['-', '0'] ↔
    n.mantissa.negative = true ∧ n.mantissa.whole = ['0'] := by
  rw [front]
  cases n.mantissa.negative with
  | true => simp
  | false =>
    refine ⟨fun h => ?_, fun h => absurd h.1 Bool.false_ne_true⟩
    have hminus := n.isDigit_whole '-' (by rw [show n.mantissa.whole = ['-', '0'] from h]; simp)
    cases hminus

theorem mantissa_text_tidied {places : List Char} (h : n.mantissa.places = some places) :
    n.mantissa.tidied.text =
      if stripZeros places = [] then (if n.front = ['-', '0'] then ['0'] else n.front)
      else n.front ++ '.' :: stripZeros places := by
  have hwhole : n.mantissa.tidied.whole ≠ [] := n.tidied.whole_ne_nil
  rw [Numeral.text_eq hwhole, Numeral.tidied, h]
  dsimp only
  split
  · -- Without places, only a zero loses its sign.
    by_cases hzero : n.front = ['-', '0']
    · obtain ⟨hnegative, hwhole⟩ := front_eq_iff.1 hzero
      rw [if_pos hzero, hnegative, hwhole]
      rfl
    · have hsign : (n.mantissa.negative && n.mantissa.whole != ['0']) = n.mantissa.negative := by
        rw [front_eq_iff] at hzero
        simpa using hzero
      rw [if_neg hzero, hsign]
      exact congrArg _ (List.append_nil _)
  · rw [front, List.append_assoc]
    rfl

/-- With a point, and with a small exponent or none, the numeral is tidied. -/
theorem tidy_small {places : List Char} (h : n.mantissa.places = some places)
    (hsmall : ∀ e ∈ n.exponent, e.capital = false) : Display.tidy n.text = n.tidied.text := by
  have hpoint : '.' ∈ n.mantissa.text := by
    rw [mantissa_text_of_some h]
    simp
  have he : 'e' ∉ n.mantissa.text := fun hmem => by
    rcases mem_mantissa_text hmem with h | h | h <;> cases h
  have hhead : ∀ c ∈ n.exponentText.head?, c = 'e' := by
    intro c hc
    obtain ⟨e, he, rfl⟩ := mem_head?_exponentText hc
    rw [PrintedExponent.letter, hsmall e he, if_neg Bool.false_ne_true]
  have hcut : n.mantissa.tidied.text ++ n.exponentText = n.tidied.text := rfl
  rw [text, Display.tidy_append hpoint he hhead (cut_mantissa h), ← hcut, mantissa_text_tidied h]
  congr 1
  split
  · simp [n.front_ne_nil]
  · exact Display.cut_of_mem (c := '.') (by simp) (by decide)

theorem exponentText_capital {e : PrintedExponent} (he : n.exponent = some e)
    (hcapital : e.capital = true) : n.exponentText = 'E' :: e.sign :: e.digits := by
  rw [exponentText, he]
  change e.letter :: e.sign :: e.digits = _
  rw [PrintedExponent.letter, hcapital, if_pos rfl]

/-- A capital exponent loses the zeros at its end. -/
theorem tidy_capital {places : List Char} {e : PrintedExponent}
    (h : n.mantissa.places = some places) (he : n.exponent = some e) (hcapital : e.capital = true) :
    Display.tidy n.text = n.mantissa.text ++ 'E' :: e.sign :: stripZeros e.digits := by
  have htext : n.text = n.mantissa.text ++ ['E'] ++ e.sign :: e.digits := by
    rw [text, exponentText_capital he hcapital, List.append_assoc]
    rfl
  have hpoint : '.' ∈ n.text := by
    rw [htext, mantissa_text_of_some h]
    simp
  have hsign : e.sign ≠ '0' ∧ e.sign ≠ '.' ∧ e.sign ≠ 'e' := by
    rw [PrintedExponent.sign]
    split <;> decide
  have hsmall : 'e' ∉ n.text := by
    rw [htext, List.append_assoc]
    intro hmem
    rcases List.mem_append.1 hmem with hmem | hmem
    · rcases mem_mantissa_text hmem with h | h | h <;> cases h
    · have hdigits : 'e' ∉ e.digits := fun h => by cases e.isDigit_digits 'e' h
      simp [hsign.2.2.symm, hdigits] at hmem
  -- The sign of the exponent is neither a zero nor a point.
  have hcut : (n.text.rdropWhile (· == '0')).rdropWhile (· == '.') =
      n.mantissa.text ++ ['E'] ++ e.sign :: stripZeros e.digits := by
    have hzero : (e.sign == '0') = false := beq_false_of_ne hsign.1
    rw [htext, rdropWhile_append_cons (p := (· == '0')) hzero, ← stripZeros]
    refine rdropWhile_append_eq_self _ (List.cons_ne_nil _ _) fun c hc => ?_
    rcases List.mem_cons.1 hc with rfl | hc
    · exact beq_false_of_ne hsign.2.1
    · exact not_isPoint_of_isDigit (isDigit_stripZeros e.isDigit_digits c hc)
  have hnone : ∀ c ∈ ([] : List Char).head?, c = 'e' := fun c hc =>
    absurd hc (Option.not_mem_none c)
  have htidy := Display.tidy_append hpoint hsmall hnone hcut
  rw [List.append_nil, List.append_nil,
    Display.cut_of_mem (c := 'E') (by simp) (by decide)] at htidy
  rw [htidy, List.append_assoc]
  rfl

/-! ## What tidying keeps -/

/-- The numeral is tidied to one of the same value and with the same exponent, whose mantissa
    is tidy and which is tidied to itself. -/
def Tidies (n : PrintedNumeral) : Prop :=
  ∃ t : PrintedNumeral, Display.tidy n.text = t.text ∧ t.value = n.value ∧
    t.exponent = n.exponent ∧ t.mantissa.IsTidy ∧ Display.tidy t.text = t.text

theorem tidied_of_isTidy (h : n.mantissa.IsTidy) : n.tidied = n := by
  have hmantissa := Numeral.tidied_of_isTidy h
  obtain ⟨mantissa, exponent, _, _, _⟩ := n
  simp only [tidied, mk.injEq, and_true]
  exact hmantissa

theorem tidy_of_none (h : n.mantissa.places = none) : Display.tidy n.text = n.text := by
  refine Display.tidy_of_notMem fun hpoint => ?_
  rw [text, mantissa_text_of_none h] at hpoint
  rcases List.mem_append.1 hpoint with hpoint | hpoint
  · rcases mem_front hpoint with h | h <;> cases h
  · obtain ⟨e, -, hpoint⟩ := mem_exponentText hpoint
    exact e.point_notMem_text hpoint

theorem tidies_of_eq (htidy : n.mantissa.IsTidy) (h : Display.tidy n.text = n.text) : n.Tidies :=
  ⟨n, h, rfl, rfl, htidy, h⟩

theorem tidies_of_none (h : n.mantissa.places = none) : n.Tidies :=
  tidies_of_eq (by rw [Numeral.IsTidy, h]; nofun) (tidy_of_none h)

theorem tidies_of_small (hsmall : ∀ e ∈ n.exponent, e.capital = false) : n.Tidies := by
  cases hn : n.mantissa.places with
  | none => exact tidies_of_none hn
  | some places =>
    have htidy : n.tidied.mantissa.IsTidy := Numeral.isTidy_tidied _
    refine ⟨n.tidied, tidy_small hn hsmall, ?_, rfl, htidy, ?_⟩
    · rw [value, value, tidied]
      dsimp only
      rw [Numeral.exact_tidied]
    · cases ht : n.tidied.mantissa.places with
      | none => exact tidy_of_none ht
      | some places' =>
        rw [tidy_small (n := n.tidied) ht hsmall, tidied_of_isTidy htidy]

/-- A numeral with a capital exponent and a point tidies if there is nothing to take off, and
    only then. -/
theorem tidies_capital {places : List Char} {e : PrintedExponent}
    (h : n.mantissa.places = some places) (he : n.exponent = some e) (hcapital : e.capital = true) :
    n.Tidies ↔ n.mantissa.IsTidy ∧ e.digits.getLast? ≠ some '0' := by
  have hcut := tidy_capital h he hcapital
  refine ⟨?_, fun ⟨htidy, hlast⟩ => tidies_of_eq htidy ?_⟩
  · -- A result with the same exponent has its zeros, so that none have been taken off.
    rintro ⟨t, htext, -, hexponent, htidy, -⟩
    have hrest := exponentText_capital (hexponent.trans he) hcapital
    rw [hcut, text, hrest] at htext
    have hE (rest : List Char) : ∀ c ∈ ('E' :: rest).head?, c.isDigit = false ∧ c ≠ '.' := by
      rintro c hc
      obtain rfl := Option.some.inj hc
      decide
    obtain ⟨hmantissa, hdigits⟩ := mantissa_append_inj (hE _) (hE _) htext
    rw [hmantissa]
    exact ⟨htidy, stripZeros_eq_self_iff.1 (List.cons.inj (List.cons.inj hdigits).2).2⟩
  · rw [hcut, stripZeros_eq_self_iff.2 hlast, ← exponentText_capital he hcapital, text]

/-- Every numeral tidies, save for those with a point and a capital exponent whose places or
    whose exponent end in a zero. -/
theorem tidies_iff (n : PrintedNumeral) :
    n.Tidies ↔ ∀ e ∈ n.exponent, e.capital = true →
      n.mantissa.places = none ∨ n.mantissa.IsTidy ∧ e.digits.getLast? ≠ some '0' := by
  cases hn : n.mantissa.places with
  | none => exact ⟨fun _ _ _ _ => .inl rfl, fun _ => tidies_of_none hn⟩
  | some places =>
    cases he : n.exponent with
    | none => exact ⟨fun _ => nofun, fun _ => tidies_of_small (by rw [he]; nofun)⟩
    | some e =>
      cases hcapital : e.capital with
      | false =>
        have hsmall : n.Tidies := tidies_of_small (by simp [he, hcapital])
        simp [hcapital, hsmall]
      | true => simp [hcapital, tidies_capital hn he hcapital]

/-- Fifteen thousand million are tidied to fifteen. -/
theorem capital_exponent_cut :
    ∃ n t : PrintedNumeral, n.text = "1.50E+10".toList ∧ n.value = 15000000000 ∧
      Display.tidy n.text = t.text ∧ t.value = 15 ∧ ¬n.Tidies := by
  have hdigits (digits : List Char) (h : digits.all Char.isDigit = true) :
      ∀ c ∈ digits, c.isDigit = true := List.all_eq_true.1 h
  let n : PrintedNumeral :=
    ⟨⟨false, ['1'], some ['5', '0']⟩,
      some ⟨true, false, ['1', '0'], List.cons_ne_nil _ _, hdigits _ rfl⟩,
      List.cons_ne_nil _ _, hdigits _ rfl, hdigits _ rfl⟩
  let t : PrintedNumeral :=
    ⟨n.mantissa, some ⟨true, false, ['1'], List.cons_ne_nil _ _, hdigits _ rfl⟩,
      n.whole_ne_nil, n.isDigit_whole, n.isDigit_places⟩
  have hsize : (n.mantissa.exact : ℚ) = 150 / 10 ^ 2 := rfl
  have hn : n.value = 15000000000 := by
    change n.mantissa.exact * 10 ^ (10 : Int) = _
    rw [hsize]
    norm_num
  have ht : t.value = 15 := by
    change n.mantissa.exact * 10 ^ (1 : Int) = _
    rw [hsize]
    norm_num
  have htext : Display.tidy n.text = t.text := rfl
  refine ⟨n, t, rfl, hn, htext, ht, ?_⟩
  -- No other numeral has the text that is left.
  rintro ⟨t', htext', hvalue, -⟩
  obtain rfl := text_injective (htext.symm.trans htext')
  exact absurd (ht.symm.trans (hvalue.trans hn)) (by decide)

end PrintedNumeral

/-! ## Default formats -/

/-- What a real number is shown as in a default format of one conversion: the numeral that the
    conversion prints, tidied. With a small letter, the numeral tidies. -/
theorem Display.real_default {format : String} {d : Format.Directive} {x : Float}
    (hpieces : Format.pieces format.toList = [.directive d]) (hreal : d.IsReal)
    (hplus : d.plus = false) (hblank : d.blank = false) (hwidth : d.width = .absent)
    (hprecision : d.precision ≠ .argument) (hspecial : specialText? x = none) :
    ∃ n : PrintedNumeral, Format.show? format (.real x) = .ok (String.ofList n.text) ∧
      Display.real "" format x = .ok (String.ofList (tidy n.text)) ∧
        (d.capitals = false → n.Tidies) := by
  obtain ⟨field, hfield, n, htext, hcapital⟩ := Format.Directive.field_printed hreal hplus hblank x
  have hshown : Format.show? format (.real x) = .ok (String.ofList n.text) := by
    have hone : Format.pieces format.toList = [].map .char ++ [.directive d] := hpieces
    rw [Format.show?_of_pieces _ hone (by rw [hwidth]; nofun) hprecision, hfield, ← htext,
      ← field.padded_of_absent hwidth]
    rfl
  refine ⟨n, hshown, real_of_shown hspecial hshown, fun hsmall => ?_⟩
  exact PrintedNumeral.tidies_of_small fun e he => (hcapital e he).trans hsmall

end Reckoner
