import Reckoner.Proofs.Phrase.Series
import Reckoner.Proofs.Session.Lines

/-!
# Blanks around operators

The tokens of a phrase are written with blanks between them. Between a literal without a unit,
an operator of two operands and another literal, there may as well be more of them, or none:
the texts come to the same tree (`BinaryOperator.gives_between`), or both to the fault that a
literal of too many digits is. Neither is the operator read on into the literal behind it, nor into
a unit of the one before.

This has one exception. A unit right behind a numeral is taken if it ends the word, and `min`
is the word for minutes: `2min3` is two minutes times three (`BinaryOperator.tight_iff`).
-/

namespace Reckoner

open Text Build Node

/-! ## Operators in front of an operand -/

namespace Text

/-- The character can follow an operator: a blank, or the first one of a numeral. -/
def opensOperand (c : Char) : Bool :=
  c.isDigit || c == '-' || isBlank c

/-- A text of blanks. -/
def IsGap (gap : List Char) : Prop :=
  ∀ c ∈ gap, isBlank c = true

variable {gap : List Char}

theorem IsGap.skipBlanks_append (h : IsGap gap) (text : List Char) :
    skipBlanks (gap ++ text) = skipBlanks text :=
  List.dropWhile_append_of_pos h

theorem IsGap.atBlank_append (h : IsGap gap) (hne : gap ≠ []) (text : List Char) :
    AtBlank (gap ++ text) := by
  obtain ⟨c, gap, rfl⟩ := List.exists_cons_of_ne_nil hne
  exact .inr ⟨c, gap ++ text, h c List.mem_cons_self, rfl⟩

end Text

theorem Literal.opensOperand_text (l : Literal) : ∀ c ∈ l.text.head?, opensOperand c = true := by
  obtain ⟨c, digits, hwhole⟩ := List.exists_cons_of_ne_nil l.whole_ne_nil
  have hc := l.isDigit_whole c (hwhole ▸ List.mem_cons_self)
  intro d hd
  rw [text, Numeral.text_eq l.whole_ne_nil, hwhole] at hd
  cases hnegative : l.numeral.negative with
  | true =>
    rw [hnegative] at hd
    exact Option.some.inj hd ▸ rfl
  | false =>
    rw [hnegative] at hd
    obtain rfl := Option.some.inj hd
    rw [opensOperand, hc]
    rfl

namespace BinaryOperator

variable (o : BinaryOperator) {behind : List Char}

def spelling : List Char :=
  o.operator.spelling.toList

/-- The spelling does not begin with the word, or goes on behind it with a character that
    follows no operator. -/
def stops (word spelling : List Char) : Bool :=
  !word.isPrefixOf spelling || !(spelling.drop word.length).head?.any opensOperand

theorem not_prefix_of_stops {word spelling : List Char} (h : stops word spelling = true) :
    ∀ c, opensOperand c = true → ¬word ++ [c] <+: spelling := by
  rintro c hc ⟨rest, rfl⟩
  have hprefix : word.isPrefixOf (word ++ [c] ++ rest) = true :=
    List.isPrefixOf_iff_prefix.2 (List.append_assoc .. ▸ List.prefix_append _ _)
  rw [stops, hprefix] at h
  simp [hc] at h

/-- The operators between operands. -/
def all : List Operator :=
  Operator.table.filter fun o => o.arity == .binary

theorem mem_all : o.operator ∈ all :=
  List.mem_filter.2 ⟨o.mem_table, by simp [o.arity_eq]⟩

/-- What the spellings of these operators have in common. Where an operand may follow, no operator
    and no unit has a longer one; a unit at the head of one ends no word, unless it is `min`; and
    the first character goes on with no numeral, and separates no unit. -/
theorem spelling_facts : ∀ o ∈ all,
    (∀ e ∈ Operator.table, stops o.spelling.toList e.spelling.toList = true) ∧
    (∀ s ∈ Measure.Spelling.table, stops o.spelling.toList s.spelling.toList = true) ∧
    (o.spelling ≠ "min" → ∀ s ∈ Measure.Spelling.begins? o.spelling.toList,
      startsLetter (o.spelling.toList.drop s.spelling.length) = true) ∧
    o.spelling.toList.head?.any (fun c => !c.isDigit && c != '.' && c != 'x' && c != 'X' &&
      c != ':') = true := by
  decide +kernel

theorem begins?_append (hbehind : ∀ c ∈ behind.head?, opensOperand c = true) :
    Operator.begins? (o.spelling ++ behind) = some o.operator := by
  obtain ⟨hstops, -⟩ := spelling_facts _ o.mem_all
  refine (longestMatch_stop fun e he c hc => ?_).trans
    (longestMatch_self Operator.nodup_spelling o.mem_table)
  exact not_prefix_of_stops (hstops e he) c (hbehind c hc)

theorem measure_begins?_append (hbehind : ∀ c ∈ behind.head?, opensOperand c = true) :
    Measure.Spelling.begins? (o.spelling ++ behind) = Measure.Spelling.begins? o.spelling := by
  obtain ⟨-, hstops, -⟩ := spelling_facts _ o.mem_all
  refine longestMatch_stop fun s hs c hc => ?_
  exact not_prefix_of_stops (hstops s hs) c (hbehind c hc)

/-! ## Lines of two literals -/

/-- The literals and the operator between them, with gaps on both sides of it. -/
def between (gap gap' : List Char) (a b : Literal) : List Char :=
  a.text ++ (gap ++ (o.spelling ++ (gap' ++ b.text)))

/-- The literals and the operator, with nothing in between. -/
def tight (a b : Literal) : String :=
  String.ofList (o.between [] [] a b)

/-- The literals and the operator, with a blank on both sides of that. -/
def spaced (a b : Literal) : String :=
  String.ofList (o.between [' '] [' '] a b)

theorem length_tight_le (a b : Literal) :
    (o.tight a b).length ≤ (o.spaced a b).length := by
  simp only [tight, spaced, between, String.length_ofList, List.length_append, List.length_nil,
    List.length_singleton]
  omega

/-! ## Literals in front of an operator -/

/-- No unit at the head of the operator ends its word. -/
theorem startsLetter_drop (hmin : o.operator.spelling ≠ "min") {s : Measure.Spelling}
    (hs : Measure.Spelling.begins? o.spelling = some s) (behind : List Char) :
    startsLetter ((o.spelling ++ behind).drop s.spelling.length) = true := by
  obtain ⟨-, -, hwithin, -⟩ := spelling_facts _ o.mem_all
  have hletter : startsLetter (o.spelling.drop s.spelling.length) = true := hwithin hmin s hs
  rw [drop_spelling_append (startsWith_of_longestMatch hs)]
  cases htail : o.spelling.drop s.spelling.length with
  | nil => rw [htail] at hletter; cases hletter
  | cons c rest => rwa [htail] at hletter

/-- The first character of the operator goes on with no numeral, and separates no unit. -/
theorem head_spelling : ∃ c rest, o.spelling = c :: rest ∧ c.isDigit = false ∧ c ≠ '.' ∧
    c ≠ 'x' ∧ c ≠ 'X' ∧ c ≠ ':' := by
  obtain ⟨-, -, -, h⟩ := spelling_facts _ o.mem_all
  rw [← spelling] at h
  cases htext : o.spelling with
  | nil => rw [htext] at h; cases h
  | cons c rest =>
    rw [htext] at h
    simp only [List.head?_cons, Option.any_some, Bool.and_eq_true, Bool.not_eq_true',
      bne_iff_ne] at h
    exact ⟨c, rest, rfl, h.1.1.1.1, h.1.1.1.2, h.1.1.2, h.1.2, h.2⟩

theorem head_append (behind : List Char) : ∀ c ∈ (o.spelling ++ behind).head?,
    c.isDigit = false ∧ c ≠ '.' ∧ c ≠ 'x' ∧ c ≠ 'X' := by
  obtain ⟨c, rest, htext, hdigit, hpoint, hx, hX, -⟩ := o.head_spelling
  rw [htext]
  exact fun d hd => Option.some.inj hd ▸ ⟨hdigit, hpoint, hx, hX⟩

variable [DigitLimit]

/-- A literal is read up to the operator. -/
theorem readLiteral_append {l : Literal} (hunit : l.unit = none)
    (hmin : o.operator.spelling ≠ "min") (hbehind : ∀ c ∈ behind.head?, opensOperand c = true)
    (hfits : l.numeral.Fits) :
    Quantity.readLiteral (l.text ++ (o.spelling ++ behind)) =
      .ok l.quantity (o.spelling ++ behind) := by
  have hpart : l.quantity.readSuffixPart (o.spelling ++ behind) =
      .ok (l.quantity, false) (o.spelling ++ behind) := by
    have hbegins := o.measure_begins?_append hbehind
    have hletter (s : Measure.Spelling) (hs : Measure.Spelling.begins? o.spelling = some s) :=
      o.startsLetter_drop hmin hs behind
    obtain ⟨c, rest, htext, -, -, -, -, hcolon⟩ := o.head_spelling
    refine Quantity.readSuffixPart_of_within _ ?_ fun s hs => hletter s (hbegins.symm.trans hs)
    rw [htext]
    exact fun d hd => Option.some.inj hd ▸ hcolon
  rw [Quantity.readLiteral_bare hunit (o.head_append behind) hfits, Quantity.readSuffixes_eq]
  exact bind_of_ok hpart

/-- Neither a gap nor the operator goes on with the numeral of a literal without a unit. -/
theorem fault?_between {a b : Literal} {gap gap' : List Char} (hunit : a.unit = none)
    (hgap : IsGap gap) :
    Text.fault? (o.between gap gap' a b) = a.numeral.fault? := by
  have hsuffix : a.suffix = [] := by rw [Literal.suffix, hunit]; rfl
  by_cases hnil : gap = []
  · subst hnil
    refine Quantity.fault?_literal a ?_
    rw [hsuffix]
    exact o.head_append _
  · exact Quantity.fault?_literal a (a.head_suffix (hgap.atBlank_append hnil _))

/-- Whatever the gaps are, the line is read into the operator and its operands, unless one of
    these has too many digits. -/
theorem gives_between {a b : Literal} {gap gap' : List Char} (hunit : a.unit = none)
    (hgap : IsGap gap) (hgap' : IsGap gap') (hmin : gap = [] → o.operator.spelling ≠ "min")
    (store : Store) (messages : List Message) :
    GivesUnless store messages (a.numeral.fault?.or b.numeral.fault?) (build none)
      (o.between gap gap' a b) [⟨.parsed, some o.operator, [a.quantity], [b.quantity], []⟩] [] := by
  have hopens : ∀ c ∈ (gap' ++ b.text).head?, opensOperand c = true := by
    cases gap' with
    | nil => exact b.opensOperand_text
    | cons c gap' =>
      intro d hd
      obtain rfl := Option.some.inj hd
      simp [opensOperand, hgap' _ List.mem_cons_self]
  have hread : @Quantity.readLiteral .unlimited (o.between gap gap' a b) =
      .ok a.quantity (gap ++ (o.spelling ++ (gap' ++ b.text))) := by
    have hfits := Numeral.fits_unlimited a.numeral
    by_cases hnil : gap = []
    · subst hnil
      exact @readLiteral_append o _ .unlimited _ hunit (hmin rfl) hopens hfits
    · exact @Quantity.readLiteral_text _ .unlimited a (hgap.atBlank_append hnil _) hfits
  have ha : a.quantity.Heads (o.between gap gap' a b)
      (gap ++ (o.spelling ++ (gap' ++ b.text))) := by
    have htoken := (a.atToken.append (gap ++ (o.spelling ++ (gap' ++ b.text)))).skipBlanks_eq
    exact ⟨htoken.symm ▸ a.startsNumber_text _, htoken.symm ▸ hread⟩
  have ho : o.operator.Heads (gap ++ (o.spelling ++ (gap' ++ b.text))) (gap' ++ b.text) := by
    have htoken := ((Operator.atToken o.mem_table).append (gap' ++ b.text)).skipBlanks_eq
    have hheads : o.operator.Heads (o.spelling ++ (gap' ++ b.text)) (gap' ++ b.text) :=
      ⟨htoken.symm ▸ o.begins?_append hopens, htoken⟩
    exact hheads.of_skipBlanks (hgap.skipBlanks_append _)
  have hb : b.quantity.Heads (gap' ++ b.text) [] :=
    b.heads_text.of_skipBlanks (hgap'.skipBlanks_append _)
  have hfirst : Text.fault? (o.between gap gap' a b) = a.numeral.fault? :=
    o.fault?_between hunit hgap
  have hsecond : Text.fault? (gap' ++ b.text) = b.numeral.fault? := by
    rw [fault?_of_skipBlanks (hgap'.skipBlanks_append b.text), Quantity.fault?_text]
  rw [← hfirst, ← hsecond]
  exact Series.IsLine.gives_build ⟨[], .join (.literal ha) ho hb, rfl⟩

end BinaryOperator

/-! ## Minutes -/

/-- Minutes, which are spelled like the operator for the lesser one of two numbers. -/
def Measure.Spelling.minutes : Spelling :=
  ⟨"min", ⟨.time, "min", "min"⟩, "minutes"⟩

/-- The quantity that the digits of a literal are read as in front of the word for minutes. -/
def Literal.inMinutes (l : Literal) : Quantity :=
  { l.quantity with measure := Measure.Spelling.minutes.measure }

/-- A digit belongs to no word in front of it, and begins none. -/
theorem no_word_of_isDigit {c : Char} (hc : c.isDigit = true) (rest : List Char) :
    startsLetter (c :: rest) = false ∧ Operator.begins? (c :: rest) = none ∧
      Measure.Spelling.begins? (c :: rest) = none := by
  refine ⟨?_, longestMatch_cons (fun e he => ?_) rest, longestMatch_cons (fun e he => ?_) rest⟩
  · refine Bool.eq_false_iff.2 fun hletter => ?_
    exact Bool.false_ne_true ((isDigit_of_isAlpha hletter).symm.trans hc)
  · obtain ⟨d, rest, htext, -⟩ := Operator.atToken he
    have hnumber := (Operator.spelling_facts.2 e he).2.2
    rw [htext] at hnumber
    refine ⟨d, rest, htext, ?_⟩
    rintro rfl
    simp [startsNumber, startsDigit, hc] at hnumber
  · obtain ⟨d, rest, htext, hd⟩ := Measure.Spelling.head_opens he
    refine ⟨d, rest, htext, ?_⟩
    rintro rfl
    simp [Measure.Spelling.opens, hc] at hd

namespace BinaryOperator

variable {o : BinaryOperator}

section

variable [DigitLimit]

theorem readLiteral_minutes (hmin : o.operator.spelling = "min") {l : Literal}
    (hunit : l.unit = none) (hfits : l.numeral.Fits) {c : Char} (hc : c.isDigit = true)
    (rest : List Char) :
    Quantity.readLiteral (l.text ++ (o.spelling ++ c :: rest)) = .ok l.inMinutes (c :: rest) := by
  have hspelling : o.spelling = Measure.Spelling.minutes.spelling.toList := by
    rw [spelling, hmin]
    rfl
  obtain ⟨hletter, -, hnone⟩ := no_word_of_isDigit hc rest
  have hopens : ∀ d ∈ (c :: rest).head?, opensOperand d = true := fun d hd =>
    Option.some.inj hd ▸ by rw [opensOperand, hc]; rfl
  have hbegins := o.measure_begins?_append hopens
  have hhead := o.head_append (c :: rest)
  rw [hspelling] at hbegins hhead ⊢
  have hcolon : ∀ d ∈ (c :: rest).head?, d ≠ ':' := by
    rintro d hd rfl
    obtain rfl := Option.some.inj hd
    cases hc
  have hmem : Measure.Spelling.minutes ∈ Measure.Spelling.table := by decide +kernel
  have hword := l.quantity.readSuffixPart_word hmem
    (hbegins.trans (longestMatch_self Measure.Spelling.nodup_spelling hmem)) hletter
  rw [Quantity.readLiteral_bare hunit hhead hfits, Quantity.readSuffixes_eq]
  refine (bind_of_ok hword).trans ?_
  dsimp only
  rw [if_pos rfl, Quantity.readSuffixes_eq]
  exact bind_of_ok (Quantity.readSuffixPart_of_none _ hnone hcolon)

/-- Minutes are multiplied with the number behind them. -/
theorem gives_minutes (hmin : o.operator.spelling = "min") {a b : Literal}
    (hunit : a.unit = none) (hb : b.numeral.negative = false) (store : Store)
    (messages : List Message) :
    GivesUnless store messages (a.numeral.fault?.or b.numeral.fault?) (build none)
      (o.tight a b).toList [⟨.parsed, some .multiplication, [a.inMinutes], [b.quantity], []⟩]
      [] := by
  rw [tight, String.toList_ofList]
  obtain ⟨c, digits, hwhole⟩ := List.exists_cons_of_ne_nil b.whole_ne_nil
  have hc := b.isDigit_whole c (hwhole ▸ List.mem_cons_self)
  obtain ⟨rest, htext⟩ : ∃ rest, b.text = c :: rest := by
    rw [Literal.text, Numeral.text_eq b.whole_ne_nil, hwhole, hb]
    exact ⟨_, rfl⟩
  have hleft : a.inMinutes.Heads (o.between [] [] a b) b.text := by
    have htoken := (a.atToken.append (o.spelling ++ b.text)).skipBlanks_eq
    refine ⟨htoken.symm ▸ a.startsNumber_text _, ?_⟩
    rw [between, List.nil_append, List.nil_append, htoken, htext]
    exact @readLiteral_minutes _ .unlimited hmin _ hunit (Numeral.fits_unlimited _) _ hc rest
  have hfirst : GivesUnless store messages a.numeral.fault? (Node.blank .initial).turn
      (o.between [] [] a b) (.of ((Node.blank .initial).addOperand a.inMinutes)) b.text := by
    have hfault : Text.fault? (o.between [] [] a b) = a.numeral.fault? :=
      o.fault?_between hunit (List.forall_mem_nil _)
    rw [← hfault]
    exact hleft.gives_turn (ahead_number (.inl rfl) hleft.starts)
  have hahead : Node.ahead .number (skipBlanks b.text) = .number := by
    have hnumber := b.heads_text.starts
    rw [← List.append_nil b.text, (b.atToken.append []).skipBlanks_eq, List.append_nil,
      htext] at hnumber ⊢
    simp [Node.ahead, hnumber, (no_word_of_isDigit hc rest).2.1]
  have hsecond : GivesUnless store messages b.numeral.fault? (seeded a.inMinutes).turn b.text
      (.of ((seeded a.inMinutes).addOperand b.quantity)) [] := by
    rw [← Quantity.fault?_text]
    exact b.heads_text.gives_turn hahead
  have hread : GivesUnless store messages (a.numeral.fault?.or b.numeral.fault?)
      (Node.blank .initial).read (o.between [] [] a b)
      ⟨.parsed, some .multiplication, [a.inMinutes], [b.quantity], []⟩ [] :=
    gives_read_again hfirst (gives_read_done hsecond)
  rw [← Option.or_none (o := a.numeral.fault?.or b.numeral.fault?)]
  exact gives_readLineOn_next hread rfl (gives_readLineOn_nil _)

/-! ## With blanks and without -/

theorem gives_spaced (o : BinaryOperator) {a b : Literal} (hunit : a.unit = none) (store : Store)
    (messages : List Message) :
    GivesUnless store messages (a.numeral.fault?.or b.numeral.fault?) (build none)
      (o.spaced a b).toList [⟨.parsed, some o.operator, [a.quantity], [b.quantity], []⟩] [] := by
  rw [spaced, String.toList_ofList]
  exact o.gives_between hunit (List.forall_mem_singleton.2 rfl) (List.forall_mem_singleton.2 rfl)
    nofun store messages

theorem gives_tight (o : BinaryOperator) {a b : Literal} (hunit : a.unit = none)
    (hmin : o.operator.spelling ≠ "min") (store : Store) (messages : List Message) :
    GivesUnless store messages (a.numeral.fault?.or b.numeral.fault?) (build none)
      (o.tight a b).toList [⟨.parsed, some o.operator, [a.quantity], [b.quantity], []⟩] [] := by
  rw [tight, String.toList_ofList]
  exact o.gives_between hunit (List.forall_mem_nil _) (List.forall_mem_nil _) (fun _ => hmin)
    store messages

/-- The two are read into the same tree, with the same messages, unless the operator is spelled
    like minutes; and then they are evaluated alike, as far as they are not too long. A literal
    with too many digits is the same fault in both. -/
theorem tight_iff (o : BinaryOperator) {a b : Literal} (hunit : a.unit = none)
    (hb : b.numeral.negative = false) :
    (∀ store messages,
      match a.numeral.fault?.or b.numeral.fault? with
      | none =>
        readText none ⟨(o.tight a b).toList, store, messages⟩ =
            readText none ⟨(o.spaced a b).toList, store, messages⟩ ↔
          o.operator.spelling ≠ "min"
      | some f =>
        f.ExceedsLimit ∧ ∃ rest rest',
          readText none ⟨(o.tight a b).toList, store, messages⟩ =
              (.error (.fault f), ⟨rest, store, messages⟩) ∧
            readText none ⟨(o.spaced a b).toList, store, messages⟩ =
              (.error (.fault f), ⟨rest', store, messages⟩)) ∧
    (o.operator.spelling ≠ "min" → ∀ (settings : Settings) (s : Session),
      ¬settings.maxLength < (o.spaced a b).length →
        s.execute settings (o.tight a b) =
          ((s.execute settings (o.spaced a b)).1,
            { (s.execute settings (o.spaced a b)).2 with
              history := s.history ++ [o.tight a b] })) := by
  refine ⟨fun store messages => ?_, fun hmin settings s hlength => ?_⟩
  · have hspaced := o.gives_spaced (b := b) hunit store messages
    have hminutes (hmin : o.operator.spelling = "min") := gives_minutes hmin hunit hb store messages
    have htight (hmin : o.operator.spelling ≠ "min") :=
      o.gives_tight (b := b) hunit hmin store messages
    cases hfault : a.numeral.fault?.or b.numeral.fault? with
    | some f =>
      rw [hfault] at hspaced hminutes htight
      have hexceeds : f.ExceedsLimit := (Option.or_eq_some_iff.1 hfault).elim
        Numeral.exceedsLimit_of_fault? fun h => Numeral.exceedsLimit_of_fault? h.2
      obtain ⟨rest', hspaced⟩ := readText_of_fault hspaced
      by_cases hmin : o.operator.spelling = "min"
      · obtain ⟨rest, htight⟩ := readText_of_fault (hminutes hmin)
        exact ⟨hexceeds, rest, rest', htight, hspaced⟩
      · obtain ⟨rest, htight⟩ := readText_of_fault (htight hmin)
        exact ⟨hexceeds, rest, rest', htight, hspaced⟩
    | none =>
      rw [hfault] at hspaced hminutes htight
      rw [readText_of_gives hspaced]
      refine ⟨fun hsame hmin => ?_, fun hmin => readText_of_gives (htight hmin)⟩
      -- In front of the number, minutes leave no operator to take.
      rw [readText_of_gives (hminutes hmin)] at hsame
      have hoperators := congrArg
        (fun read => read.1.toOption.map fun nodes => nodes.map Node.operator) hsame
      have hoperator : Operator.multiplication = o.operator := by
        simpa [Except.toOption] using hoperators
      rw [← hoperator] at hmin
      exact absurd hmin (by decide)
  · have hle := o.length_tight_le a b
    obtain ⟨rest, htight⟩ :=
      readText_of_givesUnless (o.gives_tight (b := b) hunit hmin s.machine.store [])
    obtain ⟨rest', hspaced⟩ :=
      readText_of_givesUnless (o.gives_spaced (b := b) hunit s.machine.store [])
    exact Session.execute_of_readText_eq (by omega) hlength htight hspaced

end

/-- The greater of two and three. -/
theorem greater_tight : ∃ (o : BinaryOperator) (a b : Literal),
    (o.tight a b).toList = "2max3".toList ∧ (o.spaced a b).toList = "2 max 3".toList ∧
      readText none ⟨(o.tight a b).toList, Store.initial, []⟩ =
        readText none ⟨(o.spaced a b).toList, Store.initial, []⟩ := by
  let o : BinaryOperator :=
    ⟨⟨"max", "max", .arithmetic .max, "larger of two"⟩, .max, by decide, rfl⟩
  let a : Literal :=
    ⟨⟨false, ['2'], none⟩, none, by decide, List.forall_mem_singleton.2 rfl,
      Literal.isDigit_places_none, Literal.unit_mem_none⟩
  let b : Literal :=
    ⟨⟨false, ['3'], none⟩, none, by decide, List.forall_mem_singleton.2 rfl,
      Literal.isDigit_places_none, Literal.unit_mem_none⟩
  refine ⟨o, a, b, ?_, ?_,
    ((o.tight_iff (a := a) (b := b) rfl rfl).1 Store.initial [] :).2 (by decide)⟩
  · rw [tight, String.toList_ofList]
    decide +kernel
  · rw [spaced, String.toList_ofList]
    decide +kernel

/-- The lesser of two and three, and two minutes times three. -/
theorem lesser_tight :
    ((readText none ⟨"2 min 3".toList, Store.initial, []⟩).1.toOption.map fun nodes =>
      nodes.map fun node => node.operator.map Operator.spelling) = some [some "min"] ∧
    ((readText none ⟨"2min3".toList, Store.initial, []⟩).1.toOption.map fun nodes =>
      nodes.map fun node => node.operator.map Operator.spelling) = some [some "*"] := by
  exact ⟨by decide +kernel, by decide +kernel⟩

end BinaryOperator

end Reckoner
