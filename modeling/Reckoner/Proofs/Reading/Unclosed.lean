import Mathlib.Data.List.Chain
import Reckoner.Proofs.Reading.Tokens

/-!
# Groups left open

Brackets are matched as they are read: an opener opens a group, and a closer closes the
innermost one, or none where none is open (`leftOpen`). A reading warns of the groups that the
text ends in, and of each once, the innermost first (`Node.readText_warnings`).

They are not all the groups that the brackets leave open, nor only these. A closer found while
an operator waits for its operand is nested below that operator, as other operators are; the
node that it ends is not one of the group, and the group stays open (`Brackets.next`). So the
warnings are those of the brackets where no closer stands right behind such an operator, and
`3 (2+)` is warned of although its brackets match.
-/

namespace Reckoner

open Text

namespace Token

/-- An operator that an operand has to follow. -/
def waits : Token → Bool
  | operand _ => false
  | operator o => o.arity == .binary || o.arity == .assign

/-- The end of a group. -/
def closes : Token → Bool
  | operand _ => false
  | operator o => o.arity == .groupClose

/-- The openers of the open groups behind the token, the innermost first. -/
def matched (openers : List Operator) : Token → List Operator
  | operand _ => openers
  | operator o =>
    match o.arity with
    | .groupOpen => o :: openers
    | .groupClose => openers.tail
    | _ => openers

end Token

/-- The openers of the groups that the brackets leave open, the innermost first. -/
def leftOpen (tokens : List Token) : List Operator :=
  tokens.foldl Token.matched []

/-- How far the brackets of a text have been read. -/
structure Brackets where
  /-- An operator waits for its operand. -/
  waiting : Bool
  /-- The openers of the open groups, the innermost first. -/
  openers : List Operator

/-- A closer that an operator waits in front of closes nothing. -/
def Brackets.next (b : Brackets) (t : Token) : Brackets :=
  ⟨t.waits, if b.waiting && t.closes then b.openers else t.matched b.openers⟩

namespace Brackets

variable (b : Brackets) {o : Operator}

theorem next_operand (q : Quantity) : b.next (.operand q) = ⟨false, b.openers⟩ := by
  simp [next, Token.waits, Token.closes, Token.matched]

theorem next_opener (h : o.arity = .groupOpen) :
    b.next (.operator o) = ⟨false, o :: b.openers⟩ := by
  simp [next, Token.waits, Token.closes, Token.matched, h]

theorem next_closer (h : o.arity = .groupClose) :
    b.next (.operator o) = ⟨false, if b.waiting then b.openers else b.openers.tail⟩ := by
  simp [next, Token.waits, Token.closes, Token.matched, h]

/-- Operators that are no brackets leave the groups as they are. -/
theorem next_operator (hopens : o.arity ≠ .groupOpen) (hcloses : o.arity ≠ .groupClose) :
    b.next (.operator o) = ⟨(Token.operator o).waits, b.openers⟩ := by
  have hmatched : (Token.operator o).matched b.openers = b.openers := by
    rw [Token.matched]
    split <;> first | contradiction | rfl
  rw [next, hmatched, ite_self]

end Brackets

/-- The openers of the groups that a text ends in, the innermost first. -/
def unclosed (tokens : List Token) : List Operator :=
  (tokens.foldl Brackets.next ⟨false, []⟩).openers

/-- No operator waits in front of a closer. -/
def ClosersApart (tokens : List Token) : Prop :=
  tokens.IsChain fun t t' => t.waits = true → t'.closes = false

instance (tokens : List Token) : Decidable (ClosersApart tokens) :=
  inferInstanceAs (Decidable (tokens.IsChain _))

theorem openers_foldl {tokens : List Token} (h : ClosersApart tokens) {b : Brackets}
    (hb : b.waiting = true → ∀ t ∈ tokens.head?, t.closes = false) :
    (tokens.foldl Brackets.next b).openers = tokens.foldl Token.matched b.openers := by
  induction tokens generalizing b with
  | nil => rfl
  | cons t tokens ih =>
    have hnext : (b.next t).openers = t.matched b.openers := by
      refine if_neg fun hnested => ?_
      rw [Bool.and_eq_true] at hnested
      exact absurd (hb hnested.1 t rfl) (by simp [hnested.2])
    rw [List.foldl_cons, List.foldl_cons, ← hnext]
    obtain ⟨hhead, htail⟩ := List.isChain_cons.1 h
    exact ih htail fun hwaits t' ht' => hhead t' ht' hwaits

/-- Where the closers stand apart from waiting operators, a text ends in the groups that its
    brackets leave open. -/
theorem unclosed_eq_leftOpen {tokens : List Token} (h : ClosersApart tokens) :
    unclosed tokens = leftOpen tokens :=
  openers_foldl h nofun

namespace Node

variable {b : Brackets} {node : Node} {r r' : Reader}

/-! ## One step -/

/-- The brackets have been read so far when the node is read on with there. -/
structure Follows (b : Brackets) (node : Node) (r : Reader) : Prop where
  /-- What the operator of the node applies to has to follow. -/
  bound : node.operator.isSome = true →
    (node.state = .binary ∧ b.waiting = true) ∨ (b.waiting = false ∧
      (node.state = .convert ∨ node.state = .unary ∧ opensGroup (skipBlanks r.rest) = true))
  /-- A node nested below a waiting operator begins with an operator. -/
  nested : node.operator = none → b.waiting = true →
    ∃ o, Node.ahead node.state (skipBlanks r.rest) = .operator o
  /-- Behind the end of a group, reading goes on outside of it. -/
  outside : node.state = .closeParen → b.openers = []

/-- Since the first reader, there have been warnings of the innermost of the open groups, and
    the others are still open. There have been none unless the text has ended. -/
def Leaves (b : Brackets) (openers : List Operator) (r r' : Reader) : Prop :=
  ∃ warned : List Operator, r'.messages = r.messages ++ warned.map unclosedWarning ∧
    b.openers = warned ++ openers ∧
    (skipBlanks r'.rest = [] ∨ b.waiting = false ∧ warned = [])

/-- The open groups behind a node: where it is the end of a group and no operator waits for it,
    one less. -/
def openBehind (b : Brackets) (node : Node) : List Operator :=
  if node.state = .closeParen ∧ b.waiting = false then b.openers.tail else b.openers

theorem openBehind_of_open (b : Brackets) (h : node.state ≠ .closeParen) :
    openBehind b node = b.openers :=
  if_neg fun hclosed => h hclosed.1

/-- Outside of all groups, there is none that a node could end. -/
theorem openBehind_of_outside {b : Brackets} (node : Node) (h : b.openers = []) :
    openBehind b node = [] := by
  rw [openBehind, h]
  exact ite_self _

theorem leaves_of_eq {openers : List Operator} (hmessages : r'.messages = r.messages)
    (hopeners : b.openers = openers) (hend : skipBlanks r'.rest = [] ∨ b.waiting = false) :
    Leaves b openers r r' :=
  ⟨[], by rw [hmessages]; exact (List.append_nil _).symm, hopeners,
    hend.imp_right fun h => ⟨h, rfl⟩⟩

theorem follows_blank {state : NodeState} (hwaiting : b.waiting = false)
    (houtside : state = .closeParen → b.openers = []) (r : Reader) : Follows b (blank state) r :=
  ⟨nofun, fun _ h => absurd (hwaiting.symm.trans h) Bool.false_ne_true, houtside⟩

/-- What a step makes of the brackets, by what becomes of the node. -/
def Turn.Follows (b b' : Brackets) (node : Node) (r r' : Reader) : Turn → Prop
  | done node' =>
    (node.operator.isSome = true → node'.state ≠ .closeParen) ∧
      Leaves b' (openBehind b node') r r'
  | again next =>
    Node.Follows b' next r' ∧ r'.messages = r.messages ∧ b'.openers = b.openers ∧
      (node.operator.isSome = true → next.operator.isSome = true) ∧
      (next.operator.isSome = true ∨ b.waiting = false ∧ b'.waiting = false)
  | nest _ =>
    Node.Follows b' (blank .initial) r' ∧ r'.messages = r.messages ∧ b' = b ∧ b.waiting = true
  | enter outer o =>
    r'.messages = r.messages ∧ b' = ⟨false, o :: b.openers⟩ ∧ outer.state = .paren

/-- A group that is opened at the head of the text is ahead of a unary operator. -/
theorem ahead_unary {text : List Char} (h : opensGroup text = true) :
    ∃ o, Node.ahead .unary text = .operator o ∧ o.arity = .groupOpen := by
  rw [opensGroup] at h
  cases hbegins : Operator.begins? text with
  | none => rw [hbegins] at h; cases h
  | some o =>
    rw [hbegins] at h
    exact ⟨o, by simp [Node.ahead, hbegins], by simpa using h⟩

section

variable (h : Follows b node r)
include h

/-- Where no operator is ahead, none waits for a nested node, or for a group. -/
theorem Follows.cases_of_no_operator
    (hahead : ∀ o, Node.ahead node.state (skipBlanks r.rest) ≠ .operator o) :
    (node.operator = none ∧ b.waiting = false) ∨ (node.operator.isSome = true ∧
      (node.state = .binary ∧ b.waiting = true ∨ node.state = .convert ∧ b.waiting = false)) := by
  cases hoperator : node.operator with
  | none =>
    refine .inl ⟨rfl, Bool.eq_false_iff.2 fun hwaiting => ?_⟩
    obtain ⟨o, ho⟩ := h.nested hoperator hwaiting
    exact hahead o ho
  | some o =>
    refine .inr ⟨rfl, ?_⟩
    rcases h.bound (by rw [hoperator]; rfl) with hbinary | ⟨hwaiting, hconvert | ⟨hunary, hopens⟩⟩
    · exact .inl hbinary
    · exact .inr ⟨hconvert, hwaiting⟩
    · obtain ⟨o, ho, -⟩ := ahead_unary hopens
      exact absurd (hunary ▸ ho) (hahead o)

theorem Follows.addOperand
    (hahead : ∀ o, Node.ahead node.state (skipBlanks r.rest) ≠ .operator o) (q : Quantity)
    (rest : List Char) :
    (Turn.of (node.addOperand q)).Follows b ⟨false, b.openers⟩ node r { r with rest := rest } := by
  have hparsed (node' : Node) (hstate : node'.state = .parsed) :
      Turn.Follows b ⟨false, b.openers⟩ node r { r with rest := rest } (.done node') := by
    have hopen : node'.state ≠ .closeParen := by rw [hstate]; decide
    exact ⟨fun _ => hopen, leaves_of_eq rfl (openBehind_of_open b hopen).symm (.inr rfl)⟩
  rw [Node.addOperand]
  split
  · exact hparsed _ rfl
  rename_i hstate
  split
  · exact hparsed _ rfl
  · rcases h.cases_of_no_operator hahead with ⟨hoperator, hwaiting⟩ | ⟨-, hwaits⟩
    · have hnone (P : Prop) (hsome : node.operator.isSome = true) : P :=
        absurd hsome (by simp [hoperator])
      have hfollows : Follows ⟨false, b.openers⟩
          { node with prior := node.prior ++ [q], state := .number } { r with rest := rest } :=
        ⟨hnone _, fun _ h => absurd h Bool.false_ne_true, fun h => absurd h (by simp)⟩
      exact ⟨hfollows, rfl, rfl, hnone _, .inr ⟨hwaiting, rfl⟩⟩
    · -- A node that waits for an operand is complete with it.
      rcases hwaits with ⟨hbinary, -⟩ | ⟨hconvert, -⟩ <;> simp_all

/-- An operator that opens no group is taken by a node without one. -/
theorem Follows.operator_eq_none {o : Operator}
    (hahead : Node.ahead node.state (skipBlanks r.rest) = .operator o)
    (htakes : node.takesOperator = true) (hopens : o.arity ≠ .groupOpen) :
    node.operator = none := by
  cases hoperator : node.operator with
  | none => rfl
  | some bound =>
    have hunary : node.state = .unary := by simpa [takesOperator, hoperator] using htakes
    rcases h.bound (by rw [hoperator]; rfl) with ⟨hbinary, -⟩ | ⟨-, hconvert | ⟨-, hgroup⟩⟩
    · rw [hunary] at hbinary; cases hbinary
    · rw [hunary] at hconvert; cases hconvert
    · obtain ⟨o', ho', harity⟩ := ahead_unary hgroup
      rw [hunary, ho'] at hahead
      cases hahead
      exact absurd harity hopens

theorem Follows.addOperator {o : Operator} {rest : List Char}
    (hahead : Node.ahead node.state (skipBlanks r.rest) = .operator o)
    (htakes : node.takesOperator = true) (hopens : o.arity ≠ .groupOpen)
    (hrest : skipBlanks rest = rest) :
    (Turn.of (node.addOperator o rest)).Follows b (b.next (.operator o)) node r
      { r with rest := rest } := by
  have hoperator := h.operator_eq_none hahead htakes hopens
  have hnone (P : Prop) (hsome : node.operator.isSome = true) : P :=
    absurd hsome (by simp [hoperator])
  have hnext (hcloses : o.arity ≠ .groupClose) := b.next_operator hopens hcloses
  have hcomplete (state : NodeState) (hstate : state ≠ .closeParen) :
      Turn.Follows b ⟨false, b.openers⟩ node r { r with rest := rest }
        (.done { node with operator := some o, state }) :=
    ⟨fun _ => hstate, leaves_of_eq rfl (openBehind_of_open b hstate).symm (.inr rfl)⟩
  have hagain (state : NodeState) (waiting : Bool) (hstate : state ≠ .closeParen)
      (hbound : (state = .binary ∧ waiting = true) ∨ (waiting = false ∧
        (state = .convert ∨ state = .unary ∧ opensGroup rest = true))) :
      Turn.Follows b ⟨waiting, b.openers⟩ node r { r with rest := rest }
        (.again { node with operator := some o, state }) :=
    ⟨⟨fun _ => hrest.symm ▸ hbound, fun hnone => absurd hnone (Option.some_ne_none o),
      fun hclosed => absurd hclosed hstate⟩, rfl, rfl, fun _ => rfl, .inl rfl⟩
  rw [Node.addOperator]
  cases harity : o.arity with
  | binary | assign =>
    rw [hnext (by rw [harity]; decide), Token.waits, harity]
    exact hagain _ _ (by decide) (.inl ⟨rfl, rfl⟩)
  | unary =>
    rw [hnext (by rw [harity]; decide), Token.waits, harity]
    dsimp only
    split
    · rename_i hgroup
      exact hagain _ _ (by decide) (.inr ⟨rfl, .inr ⟨rfl, hgroup⟩⟩)
    · exact hcomplete _ (by decide)
  | convert =>
    rw [hnext (by rw [harity]; decide), Token.waits, harity]
    exact hagain _ _ (by decide) (.inr ⟨rfl, .inl rfl⟩)
  | groupOpen => exact absurd harity hopens
  | groupClose =>
    rw [b.next_closer harity]
    refine ⟨hnone _, leaves_of_eq rfl ?_ (.inr rfl)⟩
    rw [openBehind]
    cases b.waiting <;> rfl
  | separator =>
    rw [hnext (by rw [harity]; decide), Token.waits, harity]
    exact hcomplete _ (by decide)

variable [DigitLimit]

/-- What a step makes of the node follows on what its token makes of the brackets. -/
theorem turn_follows {turn : Turn} (hturn : node.turn r = .ok turn r') :
    turn.Follows b ((node.token? r).toList.foldl Brackets.next b) node r r' := by
  have htook := (ends_turn_took node r).of_ok hturn
  generalize node.token? r = token at htook ⊢
  cases htook with
  | ended hend =>
    refine ⟨fun hsome hclosed => ?_, leaves_of_eq rfl ?_ (.inl rfl)⟩
    · rcases h.bound hsome with ⟨hbinary, -⟩ | ⟨-, hconvert | ⟨hunary, -⟩⟩ <;> simp_all
    · rw [openBehind]
      split
      · rename_i hclosed
        change b.openers = b.openers.tail
        rw [h.outside hclosed.1]
        rfl
      · rfl
  | operand hahead =>
    change Turn.Follows b (b.next _) _ _ _ _
    rw [b.next_operand]
    exact h.addOperand hahead _ _
  | assigned hahead =>
    have hno (o : Operator) : Node.ahead node.state (skipBlanks r.rest) ≠ .operator o := by
      rw [hahead]
      nofun
    rcases h.cases_of_no_operator hno with ⟨hoperator, hwaiting⟩ | ⟨hsome, hwaits⟩
    · refine ⟨⟨fun hsome => ?_, fun _ hwaiting' => ?_, h.outside⟩, rfl, rfl, id,
        .inr ⟨hwaiting, hwaiting⟩⟩
      · rw [hoperator] at hsome
        cases hsome
      · exact absurd (hwaiting.symm.trans hwaiting') Bool.false_ne_true
    · refine ⟨⟨fun _ => ?_, fun hoperator => ?_, h.outside⟩, rfl, rfl, id, .inl hsome⟩
      · exact hwaits.imp_right fun ⟨hconvert, hwaiting⟩ => ⟨hwaiting, .inl hconvert⟩
      · rw [hoperator] at hsome
        cases hsome
  | operator hahead htakes hopens hrest => exact h.addOperator hahead htakes hopens hrest
  | opened hahead htakes hopens => exact ⟨rfl, b.next_opener hopens, rfl⟩
  | @nested o hahead htakes =>
    obtain ⟨hbound, hunary⟩ : node.operator.isSome = true ∧ node.state ≠ .unary := by
      simpa [takesOperator, Option.isSome_iff_ne_none] using htakes
    rcases h.bound hbound with ⟨hbinary, hwaiting⟩ | ⟨-, hconvert | ⟨hunary', -⟩⟩
    · -- Both nodes find what is ahead alike.
      have hahead' : Node.ahead .initial (skipBlanks (skipBlanks r.rest)) = .operator o := by
        rw [skipBlanks_skipBlanks, ← hahead, hbinary]
        rfl
      exact ⟨⟨nofun, fun _ _ => ⟨o, hahead'⟩, nofun⟩, rfl, rfl, hwaiting⟩
    · rw [hconvert] at hahead
      cases hahead
    · exact absurd hunary' hunary

end

/-! ## A reading -/

/-- What reading the part makes of the brackets. -/
def Part.Matches (part : Part) (r : Reader) (tokens : List Token) (nodes : List Node)
    (r' : Reader) : Prop :=
  match part with
  | .node node => ∀ b, Follows b node r → ∃ node', nodes = [node'] ∧
      (node.operator.isSome = true → node'.state ≠ .closeParen) ∧
        Leaves (tokens.foldl Brackets.next b) (openBehind b node') r r'
  | .group opener state _ => ∀ b below r₀, state ≠ .closeParen → Leaves b (opener :: below) r₀ r →
      Leaves (tokens.foldl Brackets.next b) below r₀ r'
  | .line node => ∀ b, Follows b node r → b.openers = [] →
      Leaves (tokens.foldl Brackets.next b) [] r r'

theorem Leaves.of_messages {openers : List Operator} {r₀ : Reader} (h : Leaves b openers r r')
    (hmessages : r.messages = r₀.messages) : Leaves b openers r₀ r' := by
  rw [Leaves, ← hmessages]
  exact h

/-- While the text goes on, there have been no warnings. -/
theorem Leaves.of_more {openers : List Operator} (h : Leaves b openers r r')
    (hmore : skipBlanks r'.rest ≠ []) :
    r'.messages = r.messages ∧ b.openers = openers ∧ b.waiting = false := by
  obtain ⟨warned, hmessages, hopeners, hend⟩ := h
  obtain ⟨hwaiting, rfl⟩ := hend.resolve_left hmore
  exact ⟨hmessages.trans (List.append_nil _), hopeners, hwaiting⟩

section

variable [DigitLimit]

theorem Reads.matches {part : Part} {tokens : List Token} {nodes : List Node}
    (h : Reads part r tokens nodes r') : part.Matches r tokens nodes r' := by
  induction h with
  | done hturn =>
    intro b hb
    obtain ⟨hopen, hleaves⟩ := turn_follows hb hturn
    exact ⟨_, rfl, hopen, hleaves⟩
  | @again node next _ r₀ _ _ _ hturn _ ih =>
    intro b hb
    obtain ⟨hnext, hmessages, hopeners, hbound, hwaiting⟩ := turn_follows hb hturn
    obtain ⟨node', hnode', hopen, hleaves⟩ := ih _ hnext
    refine ⟨node', hnode', fun hsome => hopen (hbound hsome), ?_⟩
    -- The end of a group is met in the same way before the step and behind it.
    have hbehind : openBehind ((node.token? r₀).toList.foldl Brackets.next b) node' =
        openBehind b node' := by
      rcases hwaiting with hsome | ⟨hwaiting, hwaiting'⟩
      · rw [openBehind_of_open _ (hopen hsome), openBehind_of_open _ (hopen hsome), hopeners]
      · rw [openBehind, openBehind, hopeners, hwaiting, hwaiting']
    rw [List.foldl_append, ← hbehind]
    exact hleaves.of_messages hmessages
  | @nest node outer child r₀ _ _ _ hturn _ ih =>
    intro b hb
    obtain ⟨hchild, hmessages, hsame, hwaiting⟩ := turn_follows hb hturn
    rw [hsame] at hchild
    obtain ⟨child', hchild', -, hleaves⟩ := ih b hchild
    refine ⟨_, rfl, fun _ => nofun, ?_⟩
    have hbehind : openBehind b child' = b.openers :=
      if_neg fun hclosed => Bool.false_ne_true (hclosed.2.symm.trans hwaiting)
    have houter : openBehind b (outer.nesting child) = b.openers := openBehind_of_open b nofun
    rw [List.foldl_append, hsame, houter, ← hbehind]
    exact hleaves.of_messages hmessages
  | @enter node outer opener r₀ r _ _ children hturn _ ih =>
    intro b hb
    obtain ⟨hmessages, hopened, hstate⟩ := turn_follows hb hturn
    have hopen : ({ outer with children := children } : Node).state ≠ .closeParen := by
      rw [hstate]
      nofun
    refine ⟨_, rfl, fun _ => hopen, ?_⟩
    have hentered : Leaves ⟨false, opener :: b.openers⟩ (opener :: b.openers) r r :=
      leaves_of_eq rfl rfl (.inr rfl)
    rw [List.foldl_append, hopened, openBehind_of_open b hopen]
    exact (ih _ _ r nofun hentered).of_messages hmessages
  | @unclosed opener _ _ r hend =>
    rintro b below r₀ - ⟨warned, hmessages, hopeners, -⟩
    refine ⟨warned ++ [opener], ?_, ?_, .inl rfl⟩
    · rw [List.map_append, ← List.append_assoc, ← hmessages]
      rfl
    · rw [List.append_assoc]
      exact hopeners
  | @closed _ state _ node r _ _ hmore _ hclosed ih =>
    intro b below r₀ houtside hleaves
    obtain ⟨hmessages, hopeners, hwaiting⟩ := hleaves.of_more hmore
    obtain ⟨node', hnode', -, hleaves'⟩ :=
      ih b (follows_blank hwaiting (fun h => absurd h houtside) _)
    obtain rfl : node = node' := by simpa using hnode'
    rw [openBehind, if_pos ⟨hclosed, hwaiting⟩, hopeners] at hleaves'
    exact hleaves'.of_messages hmessages
  | @within _ state _ _ node _ _ _ _ _ hmore _ hopen _ ihNode ihGroup =>
    intro b below r₀ houtside hleaves
    obtain ⟨hmessages, hopeners, hwaiting⟩ := hleaves.of_more hmore
    obtain ⟨node', hnode', -, hleaves'⟩ :=
      ihNode b (follows_blank hwaiting (fun h => absurd h houtside) _)
    obtain rfl : node = node' := by simpa using hnode'
    rw [openBehind_of_open b hopen, hopeners] at hleaves'
    rw [List.foldl_append]
    exact ihGroup _ _ _ hopen (hleaves'.of_messages hmessages)
  | last _ hend ih =>
    intro b hb hnone
    obtain ⟨node', -, -, warned, hmessages, hopeners, -⟩ := ih b hb
    exact ⟨warned, hmessages, openBehind_of_outside node' hnone ▸ hopeners, .inl rfl⟩
  | next _ hmore _ ihNode ihLine =>
    intro b hb hnone
    obtain ⟨node', hnode', -, hleaves⟩ := ihNode b hb
    obtain ⟨hmessages, hopeners, hwaiting⟩ :=
      (openBehind_of_outside node' hnone ▸ hleaves).of_more hmore
    rw [List.foldl_append]
    exact (ihLine _ (follows_blank hwaiting (fun _ => hopeners) _) hopeners).of_messages hmessages

/-- While it gives nodes, reading a text warns of the groups that the text ends in, the
    innermost first, and of nothing else. Where no operator waits in front of a closer, these
    are the groups that the brackets leave open. -/
theorem readText_warnings {seed : Option Quantity} {r : Reader}
    (h : (readText seed r).1.isOk = true) :
    (readText seed r).2.messages =
        r.messages ++ (unclosed (tokens seed r)).map unclosedWarning ∧
      (ClosersApart (tokens seed r) →
        (readText seed r).2.messages =
          r.messages ++ (leftOpen (tokens seed r)).map unclosedWarning) := by
  obtain ⟨nodes, hnodes⟩ := exists_of_isOk h
  have hbegun : Follows ⟨false, []⟩ (begunWith seed) r := by
    cases seed <;> exact ⟨nofun, nofun, nofun⟩
  obtain ⟨warned, hmessages, hopeners, -⟩ := (reads_readText hnodes).matches _ hbegun rfl
  rw [List.append_nil] at hopeners
  have hwarned : unclosed (tokens seed r) = warned := hopeners
  rw [hwarned]
  refine ⟨hmessages, fun hapart => ?_⟩
  rw [← unclosed_eq_leftOpen hapart, hwarned, hmessages]

end

/-- Of two groups, of which the inner one is closed, the outer one is left open. -/
theorem outer_group_warned :
    let r : Reader := ⟨"3*(4-(1+2)".toList, Store.initial, []⟩
    (readText none r).1.isOk = true ∧ ClosersApart (tokens none r) ∧
      (leftOpen (tokens none r)).length = 1 ∧
      (readText none r).2.messages = (leftOpen (tokens none r)).map unclosedWarning := by
  intro r
  have hbuilds : (readText none r).1.isOk = true := by decide +kernel
  have hapart : ClosersApart (tokens none r) := by decide +kernel
  have hone : (leftOpen (tokens none r)).length = 1 := by decide +kernel
  have hmessages := (readText_warnings hbuilds).2 hapart
  rw [List.nil_append] at hmessages
  exact ⟨hbuilds, hapart, hone, hmessages⟩

/-- Brackets that match are warned of where a closer stands behind a waiting operator. -/
theorem matched_group_warned :
    let r : Reader := ⟨"3 (2+)".toList, Store.initial, []⟩
    (readText none r).1.isOk = true ∧ leftOpen (tokens none r) = [] ∧
      (readText none r).2.messages.map Message.text = ["No closing bracket for '('"] := by
  intro r
  exact ⟨by decide +kernel, by decide +kernel, by decide +kernel⟩

end Node

end Reckoner
