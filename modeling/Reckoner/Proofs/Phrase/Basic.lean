import Reckoner.Evaluation.Run

/-!
# Phrases

A phrase of the language is a term, followed by any number of operators with a
term each and of conversions into units. A term is a literal, a constant, a
phrase in brackets, or a function of one. All operators are alike: a phrase is
taken from left to right.

Three things are said of a phrase by recursion on it: its text (`Phrase.text`),
with one blank between tokens; its value (`Phrase.eval`), which is that of a step
of evaluation, as conversions evaluate formulas, but has no use for the stack;
and its tree (`Phrase.nodes`), which reading the text comes to, unless a literal in it has more
digits than there may be (`Phrase.fault?`).
-/

namespace Reckoner

/-! ## Tokens -/

/-- A decimal literal, with the unit right behind it if it has one. -/
structure Literal where
  numeral : Numeral
  unit : Option Measure.Spelling
  whole_ne_nil : numeral.whole ≠ []
  isDigit_whole : ∀ c ∈ numeral.whole, c.isDigit = true
  isDigit_places : ∀ c ∈ numeral.places.getD [], c.isDigit = true
  unit_mem : ∀ s ∈ unit, s ∈ Measure.Spelling.table

namespace Literal

/-- A numeral without a point has no places. -/
theorem isDigit_places_none : ∀ c ∈ (none : Option (List Char)).getD [], c.isDigit = true :=
  List.forall_mem_nil _

theorem unit_mem_none : ∀ s ∈ (none : Option Measure.Spelling), s ∈ Measure.Spelling.table := nofun

/-- The word for the unit, if there is one. -/
def suffix (l : Literal) : List Char :=
  (l.unit.map fun s => s.spelling.toList).getD []

def text (l : Literal) : List Char :=
  l.numeral.text ++ l.suffix

def quantity (l : Literal) : Quantity :=
  match l.unit with
  | some s => { Quantity.ofNumeral l.numeral with measure := s.measure }
  | none => Quantity.ofNumeral l.numeral

/-- The integer that a literal without a point stands for. -/
def integer (l : Literal) : Int :=
  if l.numeral.negative then -(Text.valueIn 10 l.numeral.whole)
  else Text.valueIn 10 l.numeral.whole

/-- A bare literal without a point is an integer and nothing else. -/
theorem quantity_of_integer {l : Literal} (hunit : l.unit = none)
    (hplaces : l.numeral.places = none) :
    l.quantity.magnitude = .ofInt l.integer ∧ l.quantity.measure = .plain ∧
      l.quantity.format = "" := by
  have hmagnitude : l.numeral.magnitude = .ofInt l.integer := by
    rw [Numeral.magnitude, hplaces]
    rfl
  rw [quantity, hunit]
  exact ⟨hmagnitude, rfl, rfl⟩

/-- A whole number of ones, with one more than given. -/
def ones (n : Nat) : Literal where
  numeral := ⟨false, List.replicate (n + 1) '1', none⟩
  unit := none
  whole_ne_nil := List.cons_ne_nil _ _
  isDigit_whole _ hc := List.eq_of_mem_replicate hc ▸ rfl
  isDigit_places := isDigit_places_none
  unit_mem := unit_mem_none

theorem text_ones (n : Nat) : (ones n).text = List.replicate (n + 1) '1' :=
  List.append_nil _

theorem fault?_ones [DigitLimit] (n : Nat) : (ones n).numeral.fault? =
    (DigitLimit.most?.filter (· < n + 1)).map (.tooManyDigits · (n + 1)) := by
  simp only [ones, Numeral.fault?, List.length_replicate]

/-- With the usual limit, one digit more than it allows is too many. -/
theorem fault?_ones_usual : (ones 4300).numeral.fault? = some (.tooManyDigits 4300 4301) :=
  (fault?_ones 4300).trans rfl

end Literal

/-- A term of one token. -/
inductive Atom
  | literal (l : Literal)
  | constant (c : Constant) (h : c ∈ Constant.table)

namespace Atom

def text : Atom → List Char
  | literal l => l.text
  | constant c _ => c.name.toList

def quantity : Atom → Quantity
  | literal l => l.quantity
  | constant c _ => c.entry.quantity

end Atom

/-- The brackets around a group. -/
inductive Bracket
  | round
  | square

namespace Bracket

def opener : Bracket → Operator
  | round => ⟨"(", "open_paren", .opening false, "group"⟩
  | square => ⟨"[", "open_key", .opening false, "group"⟩

def closer : Bracket → Operator
  | round => ⟨")", "close_paren", .closing, "end group"⟩
  | square => ⟨"]", "close_key", .closing, "end group"⟩

/-- A text in brackets. -/
def enclose (b : Bracket) (text : List Char) : List Char :=
  b.opener.spelling.toList ++ ' ' :: text ++ ' ' :: b.closer.spelling.toList

end Bracket

/-- An operator between two operands. -/
structure BinaryOperator where
  operator : Operator
  arithmetic : Arithmetic
  mem_table : operator ∈ Operator.table
  action_eq : operator.action = .arithmetic arithmetic

/-- What an operator of one operand computes. -/
inductive UnaryFunction
  | elementary (f : Elementary)
  | circular (f : Circular)
  | inverse (f : Circular)

def UnaryFunction.action : UnaryFunction → Action
  | elementary f => .elementary f
  | circular f => .circular f
  | inverse f => .inverse f

/-- An operator of one operand. -/
structure UnaryOperator where
  operator : Operator
  function : UnaryFunction
  mem_table : operator ∈ Operator.table
  action_eq : operator.action = function.action

/-- The operator in front of a unit. -/
def Operator.conversion : Operator :=
  ⟨"::", "convert", .convert, "convert to unit"⟩

/-- The quantity that a unit stands for as the target of a conversion. -/
def Measure.Spelling.target (s : Measure.Spelling) : Quantity where
  magnitude := .whole 0
  measure := s.measure

/-- The operators between operands are those of two operands. -/
theorem Operator.arity_eq_binary_iff (o : Operator) :
    o.arity = .binary ↔ ∃ op, o.action = .arithmetic op := by
  obtain ⟨_, _, action, _⟩ := o
  cases action <;> simp [arity, Action.arity]

theorem BinaryOperator.arity_eq (o : BinaryOperator) : o.operator.arity = .binary :=
  (Operator.arity_eq_binary_iff _).2 ⟨o.arithmetic, o.action_eq⟩

/-- The operators of one operand are those that neither drop nor swap. -/
theorem Operator.arity_eq_unary_iff (o : Operator) :
    o.arity = .unary ∧ o.action ≠ .drop ∧ o.action ≠ .swap ↔
      ∃ f : UnaryFunction, o.action = f.action := by
  obtain ⟨_, _, action, _⟩ := o
  constructor
  · rintro ⟨harity, hdrop, hswap⟩
    cases action with
    | elementary f => exact ⟨.elementary f, rfl⟩
    | circular f => exact ⟨.circular f, rfl⟩
    | inverse f => exact ⟨.inverse f, rfl⟩
    | drop => exact absurd rfl hdrop
    | swap => exact absurd rfl hswap
    | _ => cases harity
  · rintro ⟨f, hf⟩
    cases f <;> cases hf <;> exact ⟨rfl, nofun, nofun⟩

/-! ## Phrases -/

mutual

inductive Term
  | atom (a : Atom)
  | group (b : Bracket) (e : Phrase)
  /-- A function of a group in round brackets. -/
  | call (f : UnaryOperator) (e : Phrase)

inductive Phrase
  | term (t : Term)
  | apply (e : Phrase) (o : BinaryOperator) (t : Term)
  | convert (e : Phrase) (s : Measure.Spelling) (h : s ∈ Measure.Spelling.table)

end

mutual

def Term.text : Term → List Char
  | .atom a => a.text
  | .group b e => b.enclose e.text
  | .call f e => f.operator.spelling.toList ++ ' ' :: Bracket.round.enclose e.text

def Phrase.text : Phrase → List Char
  | .term t => t.text
  | .apply e o t => e.text ++ ' ' :: o.operator.spelling.toList ++ ' ' :: t.text
  | .convert e s _ =>
    e.text ++ ' ' :: Operator.conversion.spelling.toList ++ ' ' :: s.spelling.toList

end

/-! ## Limits -/

section

variable [DigitLimit]

def Atom.fault? : Atom → Option Fault
  | .literal l => l.numeral.fault?
  | .constant .. => none

mutual

/-- The fault of the first literal that has too many digits. -/
def Term.fault? : Term → Option Fault
  | .atom a => a.fault?
  | .group _ e => e.fault?
  | .call _ e => e.fault?

/-- The fault of the first literal that has too many digits. -/
def Phrase.fault? : Phrase → Option Fault
  | .term t => t.fault?
  | .apply e _ t => e.fault?.or t.fault?
  | .convert e _ _ => e.fault?

end

end

/-! ## Values -/

/-- The value of two operands. -/
def BinaryOperator.eval (o : BinaryOperator) (left right : Quantity) : Eval Quantity :=
  match o.arithmetic.combine left right with
  | some q => return q
  | none => Eval.refuse (.divisionByZero o.operator.spelling)

/-- The value of a function. -/
def UnaryOperator.eval (settings : Settings) (formula : Formula) (f : UnaryOperator)
    (q : Quantity) : Eval Quantity :=
  match f.function with
  | .elementary function =>
    match function.of q with
    | some q => return q
    | none => Eval.refuse (.divisionByZero f.operator.spelling)
  | .circular function => do
    let angle ← q.toRadians settings formula
    return { magnitude := .real (function.value angle.magnitude.toReal), format := q.format }
  | .inverse function =>
    Quantity.fromRadians settings formula
      { magnitude := .real (function.angle q.magnitude.toReal), format := q.format }

mutual

def Term.eval (settings : Settings) (formula : Formula) : Term → Eval Quantity
  | .atom a => return a.quantity
  | .group _ e => e.eval settings formula
  | .call f e => do f.eval settings formula (← e.eval settings formula)

def Phrase.eval (settings : Settings) (formula : Formula) : Phrase → Eval Quantity
  | .term t => t.eval settings formula
  | .apply e o t => do
    let left ← e.eval settings formula
    let right ← t.eval settings formula
    o.eval left right
  | .convert e s _ => do (← e.eval settings formula).convertTo settings formula s.target

end

/-! ## Trees -/

/-- The operand that a term is on its own. -/
def Term.atom? : Term → Option Quantity
  | .atom a => some a.quantity
  | _ => none

/-- The node with a term behind its operator: an operand of its own, or a node
    nested in it. -/
def Node.joining (node : Node) : Option Quantity → Node → Node
  | some q, _ => { node with params := [q], state := .parsed }
  | none, nested => node.nesting nested

/-- The node that a phrase is read on with: an operand takes the next operator
    itself, and behind complete nodes there is a new one. -/
def Phrase.last : Phrase → Node
  | .term t =>
    match t.atom? with
    | some q => .seeded q
    | none => .blank .paren
  | .apply _ _ t => .blank (if t.atom?.isSome then .parsed else .function)
  | .convert .. => .blank .parsed

theorem Phrase.last_eq (e : Phrase) :
    e.last.operator = none ∧ e.last.params = [] ∧ e.last.children = [] := by
  simp only [last]
  split
  · split <;> exact ⟨rfl, rfl, rfl⟩
  · exact ⟨rfl, rfl, rfl⟩
  · exact ⟨rfl, rfl, rfl⟩

/-- The next operator is taken, and is no unit. -/
theorem Phrase.last_takes (e : Phrase) :
    e.last.takesOperator = true ∧ e.last.state ≠ .convert := by
  simp only [last]
  split
  · split <;> exact ⟨rfl, nofun⟩
  · refine ⟨rfl, fun h => ?_⟩
    dsimp only [Node.blank] at h
    split at h <;> cases h
  · exact ⟨rfl, nofun⟩

mutual

/-- The node that a term is, where none has been begun. -/
def Term.node : Term → Node
  | .atom a => .seeded a.quantity
  | .group _ e =>
    ⟨.paren, none, [], [], e.complete ++ [{ e.last with state := .closeParen }]⟩
  | .call f e =>
    ⟨.paren, some f.operator, [], [], e.complete ++ [{ e.last with state := .closeParen }]⟩

/-- The nodes of a phrase that are complete, whatever follows it. -/
def Phrase.complete : Phrase → List Node
  | .term t => if t.atom?.isSome then [] else [t.node]
  | .apply e o t =>
    let begun := { e.last with operator := some o.operator, state := .binary }
    e.complete ++ [begun.joining t.atom? t.node]
  | .convert e s _ =>
    e.complete ++
      [{ e.last with operator := some .conversion, params := [s.target], state := .parsed }]

end

/-- The nodes of a phrase that is a whole line. -/
def Phrase.nodes (e : Phrase) : List Node :=
  if e.last.isEmpty then e.complete else e.complete ++ [e.last]

end Reckoner
