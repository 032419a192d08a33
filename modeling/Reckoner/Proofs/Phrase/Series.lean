import Reckoner.Proofs.Phrase.Reading
import Reckoner.Proofs.Phrase.Running
import Reckoner.Proofs.Reading.Apart

/-!
# Literals joined by operators

A series of literals is joined by operators of two operands. Here it is given by the reader's
own account of a text: which literal comes next, and which operator (`Series.Reads`). So the
literals may be of any kind, and there may be blanks between tokens or none. A literal counts as
one however many digits it has; where these are too many, the series has a fault
(`Series.fault?`), and reading it does not get any further.

A series is read alike as a line, in brackets and behind another operator
(`Series.Reads.passes`); running it pushes its value and does nothing else
(`Series.exists_of_run`).
-/

namespace Reckoner

open Text Build Node

/-! ## Tokens -/

namespace Text

theorem atToken_skipBlanks {text : List Char} (h : skipBlanks text ≠ []) :
    AtToken (skipBlanks text) := by
  obtain ⟨c, rest, htext⟩ := List.exists_cons_of_ne_nil h
  exact ⟨c, rest, htext, not_isBlank_of_skipBlanks htext⟩

/-- The blanks in front of a token stay in front of it. -/
theorem skipBlanks_append_of_ne_nil {text : List Char} (h : skipBlanks text ≠ [])
    (behind : List Char) : skipBlanks (text ++ behind) = skipBlanks text ++ behind :=
  List.dropWhile_append.trans (if_neg fun hempty => h (List.isEmpty_iff.1 hempty))

/-- A text of blanks is passed. -/
theorem skipBlanks_append_of_eq_nil {text : List Char} (h : skipBlanks text = [])
    (behind : List Char) : skipBlanks (text ++ behind) = skipBlanks behind :=
  List.dropWhile_append.trans (if_pos (List.isEmpty_iff.2 h))

end Text

/-- There may be any number of digits. -/
@[reducible]
def DigitLimit.unlimited : DigitLimit where
  most? := none
  le_most := nofun

theorem Numeral.fits_unlimited (n : Numeral) : @Fits .unlimited n := by
  rw [@Fits.eq_def .unlimited, @fault?.eq_def .unlimited]
  cases n.places <;> rfl

/-- The literal, of however many digits, is the first token of the text. -/
structure Quantity.Heads (q : Quantity) (text behind : List Char) : Prop where
  starts : startsNumber (skipBlanks text) = true
  reads : @readLiteral .unlimited (skipBlanks text) = .ok q behind

/-- The operator is the first token of the text. -/
structure Operator.Heads (o : Operator) (text behind : List Char) : Prop where
  begins : begins? (skipBlanks text) = some o
  spelling : skipBlanks text = o.spelling.toList ++ behind

namespace Quantity

variable {q : Quantity} {text behind rest : List Char}

/-- Literals stand for no names. -/
theorem passed_isVariable : Passed (fun _ => True) fun q => q.isVariable = false where
  makes _ _ _ _ _ := rfl
  measured h _ := h
  formatted _ h := h
  lent {_ _ e} _ _ := .inr ⟨{ magnitude := .whole 0, measure := e.quantity.measure }, rfl, rfl⟩
  valued _ _ _ h h' _ := absurd (h.symm.trans h') Bool.false_ne_true
  assigned _ _ _ _ _ _ _ := trivial

/-- Too many digits are all that can keep a literal from being read. -/
theorem readLiteral_of_unlimited [DigitLimit] (h : @readLiteral .unlimited text = .ok q behind) :
    match Text.fault? text with
    | none => readLiteral text = .ok q behind
    | some f => ∃ rest, readLiteral text = .error (.fault f) rest := by
  rw [Text.fault?]
  cases hhex : startsHex (skipBlanks text) with
  | true =>
    rw [@readLiteral_of_startsHex .unlimited _ hhex] at h
    rw [Bool.not_true, Bool.and_false, if_neg Bool.false_ne_true, readLiteral_of_startsHex hhex]
    exact h
  | false =>
    cases hnumber : startsNumber (skipBlanks text) with
    | false =>
      rw [@readLiteral_of_not_startsNumber .unlimited _ hhex hnumber] at h
      cases h
    | true =>
      rw [@readLiteral_of_startsNumber .unlimited _ hhex hnumber,
        @takeNumeral_bind .unlimited _ _ (Numeral.fits_unlimited _)] at h
      rw [Bool.not_false, Bool.and_true, if_pos rfl, readLiteral_of_startsNumber hhex hnumber]
      cases hfault : (Numeral.read (skipBlanks text)).1.fault? with
      | none =>
        rw [takeNumeral_bind hfault]
        exact h
      | some f =>
        rw [takeNumeral_bind_of_fault? hfault]
        exact ⟨_, rfl⟩

namespace Heads

variable (h : q.Heads text behind)
include h

theorem isSettled : q.IsSettled := by
  have hvariable : q.isVariable = false :=
    (@reads_readLiteral _ _ passed_isVariable .unlimited _).of_ok h.reads
  rw [IsSettled, hvariable]
  rfl

theorem atToken : AtToken (skipBlanks text) := by
  refine atToken_skipBlanks fun hnil => ?_
  have hstarts := h.starts
  rw [hnil] at hstarts
  cases hstarts

theorem append (hrest : AtBlank rest) : q.Heads (text ++ rest) (behind ++ rest) := by
  have htext := skipBlanks_append_of_ne_nil h.atToken.ne_nil rest
  constructor
  · rw [htext, startsNumber_apart hrest.apart, h.starts]
  · rw [htext, @readLiteral_append _ _ _ _ hrest .unlimited h.atToken h.reads]

theorem fault?_append [DigitLimit] (hrest : AtBlank rest) :
    Text.fault? (text ++ rest) = Text.fault? text := by
  simp only [Text.fault?, skipBlanks_append_of_ne_nil h.atToken.ne_nil rest,
    startsNumber_apart hrest.apart, startsHex_append hrest.apart, Numeral.read_append hrest.apart]

/-- There may be other blanks in front. -/
theorem of_skipBlanks {text' : List Char} (htext : skipBlanks text' = skipBlanks text) :
    q.Heads text' behind :=
  ⟨htext ▸ h.starts, htext ▸ h.reads⟩

/-- It is taken where a number is taken, unless it has too many digits. -/
theorem gives_turn [DigitLimit] {store : Store} {messages : List Message} {node : Node}
    (hahead : Node.ahead node.state (skipBlanks text) = .number) :
    GivesUnless store messages (Text.fault? text) node.turn text (.of (node.addOperand q))
      behind := by
  refine (skipsBlanks_turn _).gives ?_ (skipBlanks_skipBlanks text).symm
  have hread := readLiteral_of_unlimited h.reads
  rw [fault?_skipBlanks] at hread
  cases hfault : Text.fault? text with
  | none =>
    rw [hfault] at hread
    exact gives_turn_quantity h.atToken hahead hread
  | some f =>
    rw [hfault] at hread
    obtain ⟨rest, hread⟩ := hread
    exact gives_turn_overlong h.atToken hahead hread

end Heads

end Quantity

namespace Operator

variable {o : Operator} {text behind rest : List Char}

namespace Heads

variable (h : o.Heads text behind)
include h

theorem mem_table : o ∈ table :=
  mem_of_longestMatch h.begins

theorem skipBlanks_ne_nil : skipBlanks text ≠ [] := by
  rw [h.spelling]
  exact ((Operator.atToken h.mem_table).append behind).ne_nil

theorem append (hrest : AtBlank rest) : o.Heads (text ++ rest) (behind ++ rest) := by
  have htext := skipBlanks_append_of_ne_nil h.skipBlanks_ne_nil rest
  constructor
  · rw [htext, ← h.begins]
    exact longestMatch_token blank_notMem hrest
  · rw [htext, h.spelling, List.append_assoc]

theorem of_skipBlanks {text' : List Char} (htext : skipBlanks text' = skipBlanks text) :
    o.Heads text' behind :=
  ⟨htext ▸ h.begins, htext ▸ h.spelling⟩

/-- It is taken by a node that has no operator. -/
theorem gives_turn [DigitLimit] {store : Store} {messages : List Message} {node : Node}
    {turn : Turn}
    (hahead : Node.ahead node.state (skipBlanks text) = .operator o)
    (htakes : node.takesOperator = true)
    (hturn : (if o.arity = .groupOpen then .enter (node.openGroup o) o
      else .of (node.addOperator o (skipBlanks behind))) = turn) :
    Gives store messages node.turn text turn behind := by
  rw [h.spelling] at hahead
  exact (skipsBlanks_turn _).gives (gives_turn_ahead h.mem_table hahead htakes hturn)
    (h.spelling ▸ (skipBlanks_skipBlanks text).symm)

/-- Behind operands and behind complete nodes, a sign belongs to no number. -/
theorem ahead_eq {state : NodeState} (hstate : state ≠ .initial ∧ state ≠ .binary ∧
    state ≠ .convert) : Node.ahead state (skipBlanks text) = .operator o := by
  obtain ⟨hinitial, hbinary, hconvert⟩ := hstate
  rw [Node.ahead, if_neg hconvert, if_neg (by simp [hinitial, hbinary]), h.begins]

theorem opensGroup_eq : opensGroup (skipBlanks text) = (o.arity == .groupOpen) := by
  rw [opensGroup, h.begins]

end Heads

end Operator

theorem Literal.heads (l : Literal) {behind : List Char} (hbehind : AtBlank behind) :
    l.quantity.Heads (l.text ++ behind) behind := by
  have htext := (l.atToken.append behind).skipBlanks_eq
  constructor
  · rw [htext, l.startsNumber_text]
  · rw [htext, @Quantity.readLiteral_text _ .unlimited l hbehind (Numeral.fits_unlimited _)]

theorem Literal.heads_text (l : Literal) : l.quantity.Heads l.text [] := by
  have hheads := l.heads (.inl rfl : AtBlank [])
  rwa [List.append_nil] at hheads

theorem Operator.heads {o : Operator} {behind : List Char} (h : o ∈ table)
    (hbehind : AtBlank behind) : o.Heads (o.spelling.toList ++ behind) behind := by
  have htext := ((Operator.atToken h).append behind).skipBlanks_eq
  constructor
  · rw [htext, begins?_token h hbehind]
  · rw [htext]

/-! ## Series -/

/-- Literals joined by operators, from left to right. Each has the fault that keeps it from
    being read, if there is one. -/
inductive Series
  | literal (q : Quantity) (h : q.IsSettled) (fault? : Option Fault)
  | join (e : Series) (o : BinaryOperator) (q : Quantity) (h : q.IsSettled)
    (fault? : Option Fault)

namespace Series

/-- The fault of the first literal that has one. -/
def fault? : Series → Option Fault
  | .literal _ _ fault? => fault?
  | .join e _ _ _ fault? => e.fault?.or fault?

/-- The text begins with the series. -/
inductive Reads [DigitLimit] : List Char → Series → List Char → Prop
  | literal {q : Quantity} {text behind : List Char} (h : q.Heads text behind) :
    Reads text (.literal q h.isSettled (Text.fault? text)) behind
  | join {e : Series} {o : BinaryOperator} {q : Quantity} {text mid mid' behind : List Char} :
    Reads text e mid → o.operator.Heads mid mid' → (h : q.Heads mid' behind) →
      Reads text (.join e o q h.isSettled (Text.fault? mid')) behind

/-- The node that a series is read on with. -/
def last : Series → Node
  | .literal q .. => .seeded q
  | .join .. => .blank .parsed

/-- The nodes of a series that are complete, whatever follows it. -/
def complete : Series → List Node
  | .literal .. => []
  | .join e o q .. =>
    e.complete ++
      [{ e.last with operator := some o.operator, params := [q], state := .parsed }]

/-- The nodes of a series that is a whole line. -/
def nodes (e : Series) : List Node :=
  e.complete ++ if e.last.isEmpty then [] else [e.last]

/-- The nodes of a series in brackets. -/
def enclosed (e : Series) : List Node :=
  e.complete ++ [{ e.last with state := .closeParen }]

theorem last_eq (e : Series) :
    e.last.operator = none ∧ e.last.params = [] ∧ e.last.children = [] := by
  cases e <;> exact ⟨rfl, rfl, rfl⟩

theorem takesOperator_last (e : Series) : e.last.takesOperator = true := by
  cases e <;> rfl

theorem state_last (e : Series) :
    e.last.state ≠ .initial ∧ e.last.state ≠ .binary ∧ e.last.state ≠ .convert := by
  cases e <;> simp [last, Node.seeded, Node.blank]

/-! ## Reading -/

variable {e : Series} {text behind rest : List Char} {store : Store} {messages : List Message}

/-- A bracket is no sign of a number. -/
theorem ahead_opener {b : Bracket} {inner : List Char} (h : b.opener.Heads text inner)
    {state : NodeState} (hstate : state ≠ .convert) :
    Node.ahead state (skipBlanks text) = .operator b.opener := by
  have hnumber : startsNumber (skipBlanks text) = false := by
    rw [h.spelling]
    cases b <;> rfl
  rw [Node.ahead, if_neg hstate, hnumber, Bool.false_and, if_neg Bool.false_ne_true, h.begins]

variable [DigitLimit]

theorem Reads.append (h : Reads text e behind) (hrest : AtBlank rest) :
    Reads (text ++ rest) e (behind ++ rest) := by
  induction h with
  | literal h =>
    rw [← h.fault?_append hrest]
    exact .literal (h.append hrest)
  | join _ ho hq ih =>
    rw [← hq.fault?_append hrest]
    exact .join ih (ho.append hrest) (hq.append hrest)

theorem Reads.of_skipBlanks {text' : List Char} (h : Reads text e behind)
    (htext : skipBlanks text' = skipBlanks text) : Reads text' e behind := by
  induction h with
  | literal h =>
    rw [← fault?_of_skipBlanks htext]
    exact .literal (h.of_skipBlanks htext)
  | join _ ho hq ih => exact .join (ih htext) ho hq

/-- An operator and a literal complete the node that a series is read on with. -/
theorem gives_read_last (e : Series) {o : BinaryOperator} {q : Quantity} {mid : List Char}
    (ho : o.operator.Heads text mid) (hq : q.Heads mid behind) :
    GivesUnless store messages (Text.fault? mid) e.last.read text
      { e.last with operator := some o.operator, params := [q], state := .parsed } behind := by
  obtain ⟨-, hparams, -⟩ := e.last_eq
  have hoperator : Gives store messages e.last.turn text
      (.again { e.last with operator := some o.operator, state := .binary }) mid := by
    refine ho.gives_turn (ho.ahead_eq e.state_last) e.takesOperator_last ?_
    rw [o.arity_eq, if_neg (by decide), addOperator, o.arity_eq]
    rfl
  have hoperand : GivesUnless store messages (Text.fault? mid)
      { e.last with operator := some o.operator, state := .binary }.turn mid
      (.of ({ e.last with operator := some o.operator, state := .binary }.addOperand q))
      behind := by
    refine hq.gives_turn ?_
    rw [Node.ahead, if_neg (by simp), if_pos (by simp [hq.starts])]
  rw [addOperand, hparams] at hoperand
  exact gives_read_again hoperator (gives_read_done hoperand)

/-- A series is read into its nodes at the beginning of a line or a group, and behind a
    complete node if it begins with no sign. -/
theorem Reads.passes (h : Reads text e behind) {state : NodeState}
    (hstate : state = .initial ∨
      state = .function ∧ Operator.begins? (skipBlanks text) = none) :
    Passes store messages e.fault? (.blank state) text e.complete e.last behind := by
  induction h with
  | @literal q text behind h =>
    have hahead : Node.ahead state (skipBlanks text) = .number := by
      rcases hstate with rfl | ⟨rfl, hnone⟩
      · rw [Node.ahead, if_neg (by decide), if_pos (by simp [h.starts])]
      · rw [Node.ahead, if_neg (by decide), if_neg (by simp), hnone]
        exact if_pos h.starts
    have hturn : GivesUnless store messages (Text.fault? text) (Node.blank state).turn text
        (.of ((Node.blank state).addOperand q)) behind := h.gives_turn hahead
    have hseeded : (Node.blank state).addOperand q = (.seeded q, false) := by
      rcases hstate with rfl | ⟨rfl, -⟩ <;> rfl
    rw [hseeded] at hturn
    exact .of_again hturn
  | @join e o q _ _ _ _ _ ho hq ih =>
    exact (ih hstate).trans (.of_next (e.gives_read_last ho hq) rfl (by simp))

/-! ## Lines and groups -/

/-- The text is the series and nothing else. -/
def IsLine (text : List Char) (e : Series) : Prop :=
  ∃ behind, Reads text e behind ∧ skipBlanks behind = []

/-- The text is the series in brackets and nothing else. -/
def IsGroup (text : List Char) (e : Series) : Prop :=
  ∃ (b : Bracket) (inner mid behind : List Char), b.opener.Heads text inner ∧
    Reads inner e mid ∧ b.closer.Heads mid behind ∧ skipBlanks behind = []

theorem isLine_literal (l : Literal) :
    IsLine l.text (.literal l.quantity l.isSettled_quantity (Text.fault? l.text)) :=
  ⟨[], .literal l.heads_text, rfl⟩

/-- The brackets may have blanks inside. -/
theorem isGroup_enclose (b : Bracket) (h : IsLine text e) : IsGroup (b.enclose text) e := by
  obtain ⟨rest, hreads, hrest⟩ := h
  have hopener : b.opener.Heads (b.enclose text)
      (' ' :: (text ++ ' ' :: (b.closer.spelling.toList ++ []))) := by
    rw [← List.append_nil (b.enclose text), b.enclose_append]
    exact Operator.heads b.opener_mem (atBlank_cons _)
  have hseries := (hreads.append (atBlank_cons (b.closer.spelling.toList ++ []))).of_skipBlanks
    (skipBlanks_cons _)
  have hcloser : b.closer.Heads (b.closer.spelling.toList ++ []) [] :=
    Operator.heads b.closer_mem (.inl rfl)
  exact ⟨b, _, _, [], hopener, hseries, hcloser.of_skipBlanks
    ((skipBlanks_append_of_eq_nil hrest _).trans (skipBlanks_cons _)), rfl⟩

/-- What is left of a line behind its last series. -/
theorem gives_readLineOn_last (e : Series) (hbehind : skipBlanks behind = []) :
    Gives store messages e.last.readLineOn behind (if e.last.isEmpty then [] else [e.last]) [] :=
  (skipsBlanks_readLineOn _).gives (gives_readLineOn_nil _) hbehind

theorem IsLine.gives_readLineOn (h : IsLine text e) {state : NodeState}
    (hstate : state = .initial ∨ state = .function ∧ Operator.begins? (skipBlanks text) = none) :
    GivesUnless store messages e.fault? (Node.blank state).readLineOn text e.nodes [] := by
  obtain ⟨behind, hreads, hbehind⟩ := h
  rw [← Option.or_none (o := e.fault?)]
  exact (hreads.passes hstate).readLineOn (e.gives_readLineOn_last hbehind)

theorem IsLine.gives_build (h : IsLine text e) :
    GivesUnless store messages e.fault? (build none) text e.nodes [] :=
  h.gives_readLineOn (.inl rfl)

theorem IsGroup.opensGroup_eq (h : IsGroup text e) : opensGroup (skipBlanks text) = true := by
  obtain ⟨b, inner, mid, behind, hopener, -⟩ := h
  rw [hopener.opensGroup_eq]
  cases b <;> rfl

/-- A group is read by a node that takes an operator. -/
theorem IsGroup.gives_read (h : IsGroup text e) {node : Node}
    (htakes : node.takesOperator = true) (hstate : node.state ≠ .convert)
    (hchildren : node.children = []) :
    GivesUnless store messages e.fault? node.read text
      { node with state := .paren, children := e.enclosed } [] := by
  obtain ⟨b, inner, mid, behind, hopener, hreads, hcloser, hbehind⟩ := h
  have hopen : Gives store messages node.turn text (.enter { node with state := .paren } b.opener)
      inner :=
    hopener.gives_turn (ahead_opener hopener hstate) htakes (by cases b <;> rfl)
  have hclose : Gives store messages e.last.turn mid
      (.done { e.last with state := .closeParen }) behind :=
    hcloser.gives_turn (hcloser.ahead_eq e.state_last) e.takesOperator_last (by cases b <;> rfl)
  exact gives_read_group hopen hchildren (hreads.passes (.inl rfl)) hcloser.skipBlanks_ne_nil
    (gives_read_done (hclose.before hbehind))

/-! ## Running -/

variable {settings : Settings} {formula : Formula} {m m' : Machine}

open Eval

/-- Running a series: the literals are pushed in turn, and each operator is applied behind
    its own. -/
def run (settings : Settings) (formula : Formula) : Series → Eval PUnit
  | .literal q .. => push [q]
  | .join e o q .. => do
    e.run settings formula
    push [q]
    apply settings formula o.operator

theorem runEach_complete (e : Series) :
    (do
      runEach settings formula e.complete
      push e.last.prior) = e.run settings formula := by
  induction e with
  | literal q h fault? => rfl
  | join e o q h fault? ih =>
    have hlast : (join e o q h fault?).last.prior = [] := rfl
    obtain ⟨-, -, hchildren⟩ := e.last_eq
    rw [hlast, run, ← ih, complete]
    simp only [runEach_append, runNode, hchildren, runEach, push_nil, pure_bind, bind_pure_unit,
      bind_assoc]

/-- The node that a series is read on with pushes what it has. -/
theorem runNode_last (e : Series) (state : NodeState) :
    runNode settings formula { e.last with state := state } = push e.last.prior := by
  obtain ⟨hoperator, hparams, hchildren⟩ := e.last_eq
  simp only [runNode, hoperator, hparams, hchildren, runEach, push_nil, pure_bind, bind_pure_unit]

theorem runEach_enclosed (e : Series) :
    runEach settings formula e.enclosed = e.run settings formula := by
  rw [enclosed, runEach_append, runEach_singleton, runNode_last, runEach_complete]

theorem runEach_nodes (e : Series) :
    runEach settings formula e.nodes = e.run settings formula := by
  have hlast : runEach settings formula (if e.last.isEmpty then [] else [e.last]) =
      push e.last.prior := by
    cases e with
    | literal q h fault? =>
      exact (runEach_singleton ..).trans (runNode_last (.literal q h fault?) .number)
    | join => rfl
  rw [nodes, runEach_append, hlast, runEach_complete]

/-- A series that can be run has pushed its value, and nothing else is changed. -/
theorem exists_of_run (h : e.run settings formula m = .ok ⟨⟩ m') :
    ∃ q, q.IsSettled ∧ m' = { m with stack := q :: m.stack } := by
  induction e generalizing m' with
  | literal q hq =>
    cases h
    exact ⟨q, hq, rfl⟩
  | join e o q hq _ ih =>
    cases hrun : e.run settings formula m with
    | error why m₁ =>
      rw [run, bind_of_error hrun] at h
      cases h
    | ok _ m₁ =>
      obtain ⟨left, hleft, rfl⟩ := ih hrun
      rw [run, bind_of_ok hrun] at h
      exact o.exists_of_apply hleft hq h

end Series

end Reckoner
