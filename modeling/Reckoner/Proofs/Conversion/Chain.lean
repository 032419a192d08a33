import Reckoner.Measure.Rule
import Reckoner.Proofs.Phrase.Reading

/-!
# Chains

The formula of a rule is a *chain*: one of the four signs and an operand behind
it, again and again, as in `- 32.*5/9+273.15`. An operand is a decimal numeral or
a constant; blanks stand in front of operands at most.

What a chain is read into is known for every chain (`Chain.readText_text`): a node
for each sign, in their order, of which the first one begins with the value that
the chain continues. That the formulas of all rules are chains is found by taking
them apart (`Rule.text_chain`).
-/

namespace Reckoner

open Text Node Build

/-! ## Signs -/

/-- The operators that chains are made of. -/
inductive Sign
  | plus
  | minus
  | times
  | slash
deriving DecidableEq

namespace Sign

/-- The sign as it is written. -/
def char : Sign → Char
  | plus => '+'
  | minus => '-'
  | times => '*'
  | slash => '/'

/-- The sign that a character is. -/
def ofChar? (c : Char) : Option Sign :=
  [plus, minus, times, slash].find? fun s => s.char == c

/-- What the sign stands for in the table of operators. -/
def entry : Sign → Operator
  | plus => ⟨"+", "add", .arithmetic .add, "addition"⟩
  | minus => ⟨"-", "sub", .arithmetic .sub, "subtraction"⟩
  | times => .multiplication
  | slash => ⟨"/", "div", .arithmetic .div, "division, exact integer quotients stay integer"⟩

def arithmetic : Sign → Arithmetic
  | plus => .add
  | minus => .sub
  | times => .mul
  | slash => .div

theorem entry_mem_table (s : Sign) : s.entry ∈ Operator.table := by
  cases s <;> decide

theorem action_entry (s : Sign) : s.entry.action = .arithmetic s.arithmetic := by
  cases s <;> rfl

/-- The sign as an operator between two operands. -/
def operator (s : Sign) : BinaryOperator :=
  ⟨s.entry, s.arithmetic, s.entry_mem_table, s.action_entry⟩

theorem spelling_entry (s : Sign) : s.entry.spelling.toList = [s.char] := by
  cases s <;> rfl

/-- A sign goes on with nothing that is written in front of it. -/
theorem isAlphanum_char (s : Sign) : s.char.isAlphanum = false ∧ s.char ≠ '.' := by
  cases s <;> decide

/-- The spellings that begin with a sign are that of the sign, and the sign in
    front of `=`. -/
theorem eq_entry_or (s : Sign) : ∀ o ∈ Operator.table, o.spelling.toList.head? = some s.char →
    o = s.entry ∨ o.spelling.toList = [s.char, '='] := by
  cases s <;> decide +kernel

/-- A sign is found in front of anything but `=`. -/
theorem begins?_cons (s : Sign) {text : List Char} (htext : text.head? ≠ some '=') :
    Operator.begins? (s.char :: text) = some s.entry := by
  have hstarts : startsWith s.entry.spelling (s.char :: text) = true := by
    rw [startsWith_iff, s.spelling_entry]
    exact ⟨text, rfl⟩
  refine Operator.begins?_of_unique s.entry_mem_table hstarts fun o ho hstarts' => ?_
  obtain ⟨rest, hrest⟩ := startsWith_iff.1 hstarts'
  have hhead : o.spelling.toList.head? = some s.char := by
    obtain ⟨c, spelling, hspelling, -⟩ := Operator.atToken ho
    rw [hspelling] at hrest ⊢
    exact congrArg some (List.cons.inj hrest).1
  rcases s.eq_entry_or o ho hhead with rfl | hspelling
  · rfl
  · rw [hspelling] at hrest
    rw [← (List.cons.inj hrest).2] at htext
    exact absurd rfl htext

/-- No unit is spelled with a sign in front. -/
theorem begins?_unit (s : Sign) (text : List Char) :
    Measure.Spelling.begins? (s.char :: text) = none := by
  have hhead : ∀ e ∈ Measure.Spelling.table, e.spelling.toList.head? ≠ some s.char := by
    cases s <;> decide +kernel
  refine longestMatch_cons (fun e he => ?_) text
  obtain ⟨c, spelling, hspelling, -⟩ := Measure.Spelling.head_opens he
  exact ⟨c, spelling, hspelling, fun h => hhead e he (by rw [hspelling, h]; rfl)⟩

end Sign

/-- The text ends here, or a sign follows. -/
def Text.AtSign (text : List Char) : Prop :=
  text = [] ∨ ∃ (s : Sign) (rest : List Char), text = s.char :: rest

/-! ## Operands -/

/-- The operand has no unit behind it, and no more digits than any limit allows. -/
def Atom.isBare : Atom → Bool
  | literal l => l.unit.isNone && l.numeral.whole.length ≤ 640
  | constant .. => true

theorem Atom.isBare_literal {l : Literal} :
    (literal l).isBare = true ↔ l.unit = none ∧ l.numeral.whole.length ≤ 640 := by
  simp [isBare]

variable {behind : List Char}

/-- What follows an operand does not go on with it. -/
theorem Text.AtSign.head? (h : AtSign behind) :
    ∀ c ∈ behind.head?, c.isAlphanum = false ∧ c ≠ '.' := by
  rintro c hc
  rcases h with rfl | ⟨s, rest, rfl⟩
  · cases hc
  · exact Option.some.inj hc ▸ s.isAlphanum_char

/-- What follows a name belongs to it in no way. -/
theorem Text.AtSign.ends_name (h : AtSign behind) : startsLetter behind = false ∧
    Quantity.startsMeasure behind = false ∧ Quantity.startsAssignment behind = false := by
  rcases h with rfl | ⟨s, rest, rfl⟩
  · exact ⟨rfl, rfl, rfl⟩
  · cases s <;> exact ⟨rfl, rfl, rfl⟩

/-- No unit follows. -/
theorem Quantity.readSuffixes_atSign (q : Quantity) (h : AtSign behind) :
    q.readSuffixes behind = .ok q behind := by
  rcases h with rfl | ⟨s, rest, rfl⟩
  · exact q.readSuffixes_atBlank (.inl rfl)
  · have hcolon : s.char ≠ ':' := by cases s <;> decide
    rw [readSuffixes_eq]
    exact bind_of_ok (q.readSuffixPart_of_none (s.begins?_unit rest)
      fun c hc => Option.some.inj hc ▸ hcolon)

theorem Literal.readLiteral_atSign [DigitLimit] (l : Literal)
    (hbare : (Atom.literal l).isBare = true) (h : AtSign behind) :
    Quantity.readLiteral (l.text ++ behind) = .ok l.quantity behind := by
  have hbehind : ∀ c ∈ behind.head?, c.isDigit = false ∧ c ≠ '.' ∧ c ≠ 'x' ∧ c ≠ 'X' := by
    rintro c hc
    obtain ⟨halpha, hpoint⟩ := h.head? c hc
    refine ⟨(Bool.or_eq_false_iff.1 halpha).2, hpoint, ?_, ?_⟩ <;> rintro rfl <;> cases halpha
  obtain ⟨hunit, hlength⟩ := Atom.isBare_literal.1 hbare
  rw [Quantity.readLiteral_bare hunit hbehind (Numeral.fits_of_length_le hlength)]
  exact Quantity.readSuffixes_atSign _ h

/-- An operand begins with a character that belongs to no sign. -/
theorem Atom.exists_cons (a : Atom) :
    ∃ c rest, a.text = c :: rest ∧ isBlank c = false ∧ c ≠ '=' := by
  cases a with
  | literal l =>
    obtain ⟨c, digits, hwhole⟩ := List.exists_cons_of_ne_nil l.whole_ne_nil
    have hc := l.isDigit_whole c (hwhole ▸ List.mem_cons_self)
    rw [text, Literal.text, Numeral.text_eq l.whole_ne_nil, hwhole]
    cases l.numeral.negative with
    | true => exact ⟨'-', _, rfl, by decide⟩
    | false => exact ⟨c, _, rfl, isBlank_of_isDigit hc, by rintro rfl; cases hc⟩
  | constant c h =>
    obtain ⟨d, rest, hname, hd⟩ := (isWritable_constant h).exists_cons
    exact ⟨d, rest, hname, isBlank_of_isAlpha hd, by rintro rfl; cases hd⟩

variable {store : Store} {messages : List Message} {begun : Node}

/-- Behind a sign, a bare operand is read up to the next one. -/
theorem Atom.gives_read [DigitLimit] (a : Atom) (hbare : a.isBare = true)
    (hstate : begun.state = .binary) (hstore : store.HoldsConstants) (h : AtSign behind) :
    Gives store messages begun.read (a.text ++ behind)
      { begun with params := begun.params ++ [a.quantity], state := .parsed } behind := by
  have hturn : Gives store messages begun.turn (a.text ++ behind)
      (.of (begun.addOperand a.quantity)) behind := by
    cases a with
    | literal l =>
      exact gives_turn_number (l.atToken.append behind) (.inr hstate) (l.startsNumber_text behind)
        (l.readLiteral_atSign hbare h)
    | constant c hc =>
      have hname := isWritable_constant hc
      have hnamed : Quantity.named store c.name = c.entry.quantity := by
        rw [Quantity.named, hstore c hc]
        rfl
      have hahead : Node.ahead begun.state (c.name.toList ++ behind) = .name :=
        ahead_name (by rw [hstate]; decide) (hname.startsNumber_append behind)
          (hname.begins?_append fun d hd => (h.head? d hd).1)
      obtain ⟨hletter, hmeasure, hassignment⟩ := h.ends_name
      have hread := Quantity.readName_operand store hname.toIsName hletter hmeasure hassignment
      rw [hnamed] at hread
      exact gives_turn_name (hname.atToken.append behind) hahead hread
  rw [addOperand, hstate] at hturn
  exact gives_read_done hturn

/-! ## Chains -/

/-- A sign and the operand behind it, with a blank between them or without. -/
structure Link where
  sign : Sign
  spaced : Bool
  operand : Atom
  isBare : operand.isBare = true

/-- What a formula is made of. -/
abbrev Chain := List Link

/-- Neither behind a value nor behind a complete node, a sign belongs to a number:
    it is taken. -/
theorem Sign.gives_turn [DigitLimit] (s : Sign) {text : List Char} (htext : text.head? ≠ some '=')
    (hstate : begun.state = .number ∨ begun.state = .parsed) (hoperator : begun.operator = none) :
    Gives store messages begun.turn (s.char :: text)
      (.again { begun with operator := some s.entry, state := .binary }) text := by
  have hahead : Node.ahead begun.state (s.char :: text) = .operator s.entry := by
    rcases hstate with h | h <;> simp [h, Node.ahead, s.begins?_cons htext]
  have htakes : begun.takesOperator = true := by simp [takesOperator, hoperator]
  have hspelling : s.char :: text = s.entry.spelling.toList ++ text := by
    rw [s.spelling_entry]
    rfl
  rw [hspelling] at hahead ⊢
  refine gives_turn_ahead s.entry_mem_table hahead htakes ?_
  cases s <;> rfl

namespace Link

/-- What is written behind the sign. -/
def operandText (l : Link) : List Char :=
  (if l.spaced then [' '] else []) ++ l.operand.text

def text (l : Link) : List Char :=
  l.sign.char :: l.operandText

/-- The node of a sign, which takes the given operands from before it. -/
def node (prior : List Quantity) (l : Link) : Node :=
  ⟨.parsed, some l.sign.entry, prior, [l.operand.quantity], []⟩

theorem head?_operandText (l : Link) (behind : List Char) :
    (l.operandText ++ behind).head? ≠ some '=' := by
  obtain ⟨c, rest, htext, -, hc⟩ := l.operand.exists_cons
  rw [operandText, htext]
  cases l.spaced <;> simp [hc]

theorem gives_read_operand [DigitLimit] (l : Link) (hstate : begun.state = .binary)
    (hstore : store.HoldsConstants) (h : AtSign behind) :
    Gives store messages begun.read (l.operandText ++ behind)
      { begun with params := begun.params ++ [l.operand.quantity], state := .parsed } behind := by
  have hread : Gives store messages begun.read (l.operand.text ++ behind) _ behind :=
    l.operand.gives_read l.isBare hstate hstore h
  rw [operandText]
  cases l.spaced with
  | true => exact (skipsBlanks_read _).gives hread (skipBlanks_cons _)
  | false => exact hread

/-- A sign and its operand complete a node without an operator. -/
theorem gives_read [DigitLimit] (l : Link) (hstate : begun.state = .number ∨ begun.state = .parsed)
    (hoperator : begun.operator = none) (hparams : begun.params = [])
    (hchildren : begun.children = []) (hstore : store.HoldsConstants) (h : AtSign behind) :
    Gives store messages begun.read (l.text ++ behind) (l.node begun.prior) behind := by
  have hsign : Gives store messages begun.turn (l.sign.char :: (l.operandText ++ behind)) _
      (l.operandText ++ behind) :=
    l.sign.gives_turn (l.head?_operandText behind) hstate hoperator
  have hoperand : Gives store messages
      { begun with operator := some l.sign.entry, state := .binary }.read
      (l.operandText ++ behind) _ behind :=
    l.gives_read_operand rfl hstore h
  have hnode := gives_read_again hsign hoperand
  simp only [hparams, hchildren, List.nil_append] at hnode
  exact hnode

end Link

namespace Chain

def text : Chain → List Char
  | [] => []
  | l :: c => l.text ++ text c

/-- What a chain is read into where it continues the given value. -/
def nodes (seed : Quantity) : Chain → List Node
  | [] => [seeded seed]
  | l :: c => l.node [seed] :: c.map (Link.node [])

theorem atSign (c : Chain) : AtSign (text c) := by
  cases c with
  | nil => exact .inl rfl
  | cons l c => exact .inr ⟨l.sign, _, rfl⟩

/-- Behind a complete node, a chain is read sign by sign. -/
theorem gives_readLineOn [DigitLimit] (hstore : store.HoldsConstants) (c : Chain) :
    Gives store messages (blank .parsed).readLineOn (text c) (c.map (Link.node [])) [] := by
  induction c with
  | nil => exact gives_readLineOn_nil _
  | cons l c ih =>
    have hread :
        Gives store messages (blank .parsed).read (l.text ++ text c) (l.node []) (text c) :=
      l.gives_read (.inr rfl) rfl rfl rfl hstore (atSign c)
    exact gives_readLineOn_next hread rfl ih

/-- A chain is read in full, behind any value, with nothing to say. -/
theorem readText_text [DigitLimit] (hstore : store.HoldsConstants) (seed : Quantity) (c : Chain) :
    readText (some seed) ⟨text c, store, messages⟩ =
      (.ok (nodes seed c), ⟨[], store, messages⟩) := by
  have hline : Gives store messages (seeded seed).readLineOn (text c) (nodes seed c) [] := by
    cases c with
    | nil => exact gives_readLineOn_nil _
    | cons l c =>
      have hread : Gives store messages (seeded seed).read (l.text ++ text c) (l.node [seed])
          (text c) :=
        l.gives_read (.inl rfl) rfl rfl rfl hstore (atSign c)
      exact gives_readLineOn_next hread rfl (gives_readLineOn hstore c)
  exact readText_of_gives hline

end Chain

/-! ## Taking texts apart -/

/-- The operand that a numeral is, if it begins with a digit and is short enough. -/
def Atom.ofNumeral? (n : Numeral) : Option { a : Atom // a.isBare = true } :=
  if h : n.whole ≠ [] ∧ n.whole.all Char.isDigit = true ∧
      (n.places.getD []).all Char.isDigit = true ∧ n.whole.length ≤ 640 then
    some ⟨.literal ⟨n, none, h.1, List.all_eq_true.1 h.2.1, List.all_eq_true.1 h.2.2.1,
      Literal.unit_mem_none⟩, Atom.isBare_literal.2 ⟨rfl, h.2.2.2⟩⟩
  else none

/-- The operand at the head of a text, and what is behind it. -/
def Atom.ofText? (text : List Char) : Option ({ a : Atom // a.isBare = true } × List Char) :=
  match Constant.table.attach.find? fun c => startsWith c.1.name text with
  | some c => some (⟨.constant c.1 c.2, rfl⟩, text.drop c.1.name.length)
  | none =>
    let (numeral, rest) := Numeral.read text
    (Atom.ofNumeral? numeral).map fun a => (a, rest)

/-- The sign and its operand at the head of a text, and what is behind them. -/
def Link.ofText? : List Char → Option (Link × List Char)
  | [] => none
  | c :: text => do
    let sign ← Sign.ofChar? c
    let spaced := text.head? == some ' '
    let (a, rest) ← Atom.ofText? (if spaced then text.tail else text)
    return (⟨sign, spaced, a.1, a.2⟩, rest)

/-- The chain that a text is, of at most the given number of signs. -/
def Chain.ofText? : (signs : Nat) → List Char → Option Chain
  | _, [] => some []
  | 0, _ => none
  | signs + 1, text => do
    let (l, rest) ← Link.ofText? text
    return l :: (← ofText? signs rest)

namespace Measure.Rule

/-- The chain that the formula of a rule is. -/
def chain (r : Rule) : Chain :=
  (Chain.ofText? r.formula.length r.formula.toList).getD []

/-- The formulas of all rules are chains. -/
theorem text_chain : ∀ r ∈ table, Chain.text r.chain = r.formula.toList := by
  decide +kernel

end Measure.Rule

end Reckoner
