import Reckoner.Proofs.Reading.Names
import Reckoner.Proofs.Reading.Passing

/-!
# Reading the text of a phrase

The text of a phrase is read into its tree, unless a literal in it has more digits
than there may be (`Phrase.readText_text`). A phrase comes to the same nodes
wherever it stands (`Phrase.passes`), as a line or in brackets; what is ahead of
it is never part of it, as there is a blank between.
-/

namespace Reckoner

open Text Build

/-- The constants have their values in the store. -/
def Store.HoldsConstants (store : Store) : Prop :=
  ∀ c ∈ Constant.table, store.lookup? c.name = some c.entry.quantity

theorem Store.holdsConstants_initial : Store.initial.HoldsConstants := by
  intro c hc
  simp only [Constant.table, List.mem_cons, List.not_mem_nil, or_false] at hc
  rcases hc with rfl | rfl <;> rfl

namespace Node

variable {store : Store} {messages : List Message} {text behind : List Char} {name : String}
  {node : Node} {o : Operator}

/-! ## Tokens -/

/-- What is neither a number nor an operator is a name. -/
theorem ahead_name {state : NodeState} (hstate : state ≠ .convert)
    (hnumber : startsNumber text = false) (hoperator : Operator.begins? text = none) :
    ahead state text = .name := by
  rw [ahead, if_neg hstate, hnumber, hoperator, Bool.false_and, if_neg Bool.false_ne_true]
  exact if_neg Bool.false_ne_true

theorem ahead_operator (ho : o ∈ Operator.table) (hstate : node.state ≠ .convert)
    (hbehind : AtBlank behind) :
    ahead node.state (o.spelling.toList ++ behind) = .operator o := by
  rw [ahead, if_neg hstate, Operator.startsNumber_token ho hbehind, Bool.false_and,
    if_neg Bool.false_ne_true, Operator.begins?_token ho hbehind]

variable [DigitLimit]

theorem turn_token (h : AtToken text) :
    node.turn ⟨text, store, messages⟩ =
      node.proceed (ahead node.state text) ⟨text, store, messages⟩ := by
  have hmore : skipBlanks text ≠ [] := h.skipBlanks_eq.symm ▸ h.ne_nil
  rw [turn_eq node hmore, h.skipBlanks_eq]

/-- A number that is ahead is taken. -/
theorem gives_turn_quantity {q : Quantity} (htext : AtToken text)
    (hahead : ahead node.state text = .number)
    (hread : Quantity.readLiteral text = .ok q behind) :
    Gives store messages node.turn text (.of (node.addOperand q)) behind := by
  have hscan : scan Quantity.readLiteral ⟨text, store, messages⟩ =
      .ok q ⟨behind, store, messages⟩ := by
    rw [scan, hread]
  refine ⟨behind, ?_, rfl⟩
  rw [turn_token htext, hahead, proceed]
  exact bind_of_ok hscan

/-- A number is taken where an operand may stand in front of a term or has to
    follow. -/
theorem gives_turn_number {q : Quantity} (htext : AtToken text)
    (hstate : node.state = .initial ∨ node.state = .binary) (hnumber : startsNumber text = true)
    (hread : Quantity.readLiteral text = .ok q behind) :
    Gives store messages node.turn text (.of (node.addOperand q)) behind :=
  gives_turn_quantity htext (ahead_number hstate hnumber) hread

/-- A fault of the number that is ahead interrupts reading. -/
theorem gives_turn_overlong {f : Fault} {rest : List Char} {turn : Turn} (htext : AtToken text)
    (hahead : ahead node.state text = .number)
    (hread : Quantity.readLiteral text = .error (.fault f) rest) :
    GivesUnless store messages (some f) node.turn text turn behind := by
  have hscan : scan Quantity.readLiteral ⟨text, store, messages⟩ =
      .error (.fault f) ⟨rest, store, messages⟩ := by
    rw [scan, hread]
  refine ⟨rest, ?_⟩
  rw [turn_token htext, hahead, proceed]
  exact bind_of_error hscan

theorem gives_turn_literal (l : Literal) (hstate : node.state = .initial ∨ node.state = .binary)
    (hbehind : AtBlank behind) :
    GivesUnless store messages l.numeral.fault? node.turn (l.text ++ behind)
      (.of (node.addOperand l.quantity)) behind := by
  have hahead : ahead node.state (l.text ++ behind) = .number :=
    ahead_number hstate (l.startsNumber_text behind)
  cases hfault : l.numeral.fault? with
  | none =>
    exact gives_turn_quantity (l.atToken.append behind) hahead
      (Quantity.readLiteral_text l hbehind hfault)
  | some f =>
    exact gives_turn_overlong (l.atToken.append behind) hahead
      (Quantity.readLiteral_overlong l hfault (l.head_suffix hbehind))

theorem gives_turn_name {q : Quantity} (htext : AtToken text)
    (hahead : ahead node.state text = .name)
    (hread : Quantity.readName store text = .ok (.operand q) behind) :
    Gives store messages node.turn text (.of (node.addOperand q)) behind := by
  have hscan : scan (Quantity.readName store) ⟨text, store, messages⟩ =
      .ok (.operand q) ⟨behind, store, messages⟩ := by
    rw [scan, hread]
  have hmention : mention ⟨text, store, messages⟩ = .ok (some q) ⟨behind, store, messages⟩ :=
    (bind_of_ok (y := get) rfl).trans (bind_of_ok hscan)
  refine ⟨behind, ?_, rfl⟩
  rw [turn_token htext, hahead, proceed]
  exact bind_of_ok hmention

/-- A name in front of a blank, or at the end. -/
theorem gives_turn_named (h : IsWritable name) (hstate : node.state ≠ .convert)
    (hbehind : AtBlank behind) :
    Gives store messages node.turn (name.toList ++ behind)
      (.of (node.addOperand (.named store name))) behind := by
  have hhead : ∀ c ∈ behind.head?, c.isAlphanum = false := hbehind.forall_head?_of_all (by decide)
  have hsign := hbehind.forall_head?_of_all (p := fun c => c ≠ ':' ∧ c ≠ '=') (by decide)
  refine gives_turn_name (h.atToken.append behind)
    (ahead_name hstate (h.startsNumber_append behind) (h.begins?_append hhead))
    (Quantity.readName_operand store h.toIsName (startsLetter_of_atBlank hbehind) ?_ ?_)
  · cases behind with
    | nil => rfl
    | cons c rest => simp [Quantity.startsMeasure, (hsign c rfl).1]
  · cases behind with
    | nil => rfl
    | cons c rest => simp [Quantity.startsAssignment, (hsign c rfl).2]

theorem gives_turn_constant {c : Constant} (h : c ∈ Constant.table)
    (hstore : store.lookup? c.name = some c.entry.quantity) (hstate : node.state ≠ .convert)
    (hbehind : AtBlank behind) :
    Gives store messages node.turn (c.name.toList ++ behind)
      (.of (node.addOperand c.entry.quantity)) behind := by
  have hnamed : Quantity.named store c.name = c.entry.quantity := by
    rw [Quantity.named, hstore]
    rfl
  rw [← hnamed]
  exact gives_turn_named (isWritable_constant h) hstate hbehind

theorem gives_turn_atom (a : Atom) (hstate : node.state = .initial ∨ node.state = .binary)
    (hstore : store.HoldsConstants)
    (hbehind : AtBlank behind) :
    GivesUnless store messages a.fault? node.turn (a.text ++ behind)
      (.of (node.addOperand a.quantity)) behind := by
  cases a with
  | literal l => exact gives_turn_literal l hstate hbehind
  | constant c h =>
    refine gives_turn_constant h (hstore c h) ?_ hbehind
    rcases hstate with h | h <;> rw [h] <;> decide

/-- An operator that is ahead is taken by a node that has none. -/
theorem gives_turn_ahead {turn : Turn} (ho : o ∈ Operator.table)
    (hahead : ahead node.state (o.spelling.toList ++ behind) = .operator o)
    (htakes : node.takesOperator = true)
    (hturn : (if o.arity = .groupOpen then .enter (node.openGroup o) o
      else .of (node.addOperator o (skipBlanks behind))) = turn) :
    Gives store messages node.turn (o.spelling.toList ++ behind) turn behind := by
  subst hturn
  have hdrop : scan (Scan.drop o.spelling.length) ⟨o.spelling.toList ++ behind, store, messages⟩ =
      .ok ⟨⟩ ⟨behind, store, messages⟩ :=
    congrArg (fun rest => EStateM.Result.ok PUnit.unit (⟨rest, store, messages⟩ : Reader))
      (Quantity.drop_spelling o.spelling behind)
  refine ⟨skipBlanks behind, ?_, skipBlanks_skipBlanks _⟩
  rw [turn_token ((Operator.atToken ho).append behind), hahead, proceed, if_pos htakes]
  refine (bind_of_ok hdrop).trans ((bind_of_ok (Build.ahead_eq _)).trans ?_)
  split <;> rfl

theorem gives_turn_operator {turn : Turn} (ho : o ∈ Operator.table) (hstate : node.state ≠ .convert)
    (htakes : node.takesOperator = true) (hbehind : AtBlank behind)
    (hturn : (if o.arity = .groupOpen then .enter (node.openGroup o) o
      else .of (node.addOperator o (skipBlanks behind))) = turn) :
    Gives store messages node.turn (o.spelling.toList ++ behind) turn behind :=
  gives_turn_ahead ho (ahead_operator ho hstate hbehind) htakes hturn

/-- An operator that the node does not take is nested. -/
theorem gives_turn_nested (ho : o ∈ Operator.table) (hstate : node.state ≠ .convert)
    (htakes : node.takesOperator = false) (hbehind : AtBlank behind) :
    Gives store messages node.turn (o.spelling.toList ++ behind) (.nest node)
      (o.spelling.toList ++ behind) := by
  refine ⟨o.spelling.toList ++ behind, ?_, rfl⟩
  rw [turn_token ((Operator.atToken ho).append behind), ahead_operator ho hstate hbehind, proceed,
    htakes]
  rfl

/-- Where a unit has to follow, that is taken. -/
theorem gives_turn_target {q : Quantity} (htext : AtToken text) (hstate : node.state = .convert)
    (hread : Quantity.readTarget text = .ok q behind) :
    Gives store messages node.turn text (.of (node.addOperand q)) behind := by
  have hscan : scan Quantity.readTarget ⟨text, store, messages⟩ =
      .ok q ⟨behind, store, messages⟩ := by
    rw [scan, hread]
  refine ⟨behind, ?_, rfl⟩
  rw [turn_token htext, ahead, if_pos hstate, proceed]
  exact bind_of_ok hscan

theorem gives_turn_unit {s : Measure.Spelling} (hs : s ∈ Measure.Spelling.table)
    (hstate : node.state = .convert) (hbehind : AtBlank behind) :
    Gives store messages node.turn (s.spelling.toList ++ behind) (.of (node.addOperand s.target))
      behind :=
  gives_turn_target ((Measure.Spelling.atToken hs).append behind) hstate
    (Quantity.readTarget_unit hs hbehind)

end Node

open Node

/-! ## Phrases -/

theorem Operator.conversion_mem_table : Operator.conversion ∈ Operator.table := by decide

namespace Bracket

theorem opener_mem (b : Bracket) : b.opener ∈ Operator.table := by
  cases b <;> decide

theorem closer_mem (b : Bracket) : b.closer ∈ Operator.table := by
  cases b <;> decide

theorem enclose_append (b : Bracket) (text behind : List Char) :
    b.enclose text ++ behind =
      b.opener.spelling.toList ++ ' ' :: (text ++ ' ' :: (b.closer.spelling.toList ++ behind)) := by
  simp only [enclose, List.append_assoc, List.cons_append]

end Bracket

theorem Bracket.opensGroup_enclose (b : Bracket) (text behind : List Char) :
    opensGroup (b.enclose text ++ behind) = true := by
  rw [b.enclose_append, opensGroup, Operator.begins?_token b.opener_mem (atBlank_cons _)]
  cases b <;> rfl

theorem Bracket.atToken_enclose (b : Bracket) (text behind : List Char) :
    AtToken (b.enclose text ++ behind) := by
  rw [b.enclose_append]
  exact (Operator.atToken b.opener_mem).append _

theorem Term.eq_atom {t : Term} {q : Quantity} (h : t.atom? = some q) :
    ∃ a : Atom, t = .atom a ∧ a.quantity = q := by
  cases t with
  | atom a => exact ⟨a, rfl, Option.some.inj h⟩
  | group b e => cases h
  | call f e => cases h

/-- A term of several tokens begins with an operator. -/
theorem Term.text_operator {t : Term} (h : t.atom? = none) :
    ∃ o ∈ Operator.table, ∃ rest, t.text = o.spelling.toList ++ ' ' :: rest := by
  cases t with
  | atom a => cases h
  | group b e => exact ⟨b.opener, b.opener_mem, _, List.append_assoc ..⟩
  | call f e => exact ⟨f.operator, f.mem_table, _, rfl⟩

variable {store : Store} {messages : List Message} {behind : List Char}

variable [DigitLimit]

/-- A group is read where an operator is taken. -/
theorem Phrase.gives_read_group (e : Phrase) (b : Bracket) {node : Node}
    (htakes : node.takesOperator = true) (hstate : node.state ≠ .convert)
    (hchildren : node.children = []) (hbehind : AtBlank behind)
    (he : ∀ behind, AtBlank behind → Passes store messages e.fault? (.blank .initial)
      (e.text ++ behind) e.complete e.last behind) :
    GivesUnless store messages e.fault? node.read (b.enclose e.text ++ behind)
      { node with
        state := .paren
        children := e.complete ++ [{ e.last with state := .closeParen }] } behind := by
  have hphrase := he (' ' :: (b.closer.spelling.toList ++ behind)) (atBlank_cons _)
  have hmore : skipBlanks (' ' :: (b.closer.spelling.toList ++ behind)) ≠ [] := by
    rw [skipBlanks_cons, ((Operator.atToken b.closer_mem).append behind).skipBlanks_eq]
    exact ((Operator.atToken b.closer_mem).append behind).ne_nil
  have hturn : Gives store messages node.turn (b.enclose e.text ++ behind)
      (.enter { node with state := .paren } b.opener)
      (' ' :: (e.text ++ ' ' :: (b.closer.spelling.toList ++ behind))) := by
    rw [b.enclose_append]
    exact gives_turn_operator b.opener_mem hstate htakes (atBlank_cons _) (by cases b <;> rfl)
  have hopen := hturn.before (skipBlanks_cons _)
  -- The bracket closes the node the phrase has come to, whether or not anything
  -- has been read into it.
  have hclose : Gives store messages e.last.read (' ' :: (b.closer.spelling.toList ++ behind))
      { e.last with state := .closeParen } behind := by
    refine (skipsBlanks_read _).gives (gives_read_done ?_) (skipBlanks_cons _)
    exact gives_turn_operator b.closer_mem e.last_takes.2 e.last_takes.1 hbehind
      (by cases b <;> rfl)
  exact Node.gives_read_group hopen hchildren hphrase hmore hclose

/-- A function waits for the group that follows it. -/
theorem UnaryOperator.gives_turn (f : UnaryOperator) (b : Bracket) (text : List Char) :
    Gives store messages (Node.blank .initial).turn
      (f.operator.spelling.toList ++ ' ' :: (b.enclose text ++ behind))
      (.again { Node.blank .initial with operator := some f.operator, state := .unary })
      (' ' :: (b.enclose text ++ behind)) := by
  have harity : f.operator.arity = .unary :=
    ((Operator.arity_eq_unary_iff _).2 ⟨f.function, f.action_eq⟩).1
  refine gives_turn_operator f.mem_table nofun rfl (atBlank_cons _) ?_
  rw [skipBlanks_cons, (b.atToken_enclose text behind).skipBlanks_eq, harity, if_neg nofun,
    addOperator, harity]
  dsimp only
  rw [b.opensGroup_enclose, if_pos rfl]
  rfl

/-- An operator between operands waits for the one behind it. -/
theorem BinaryOperator.gives_turn (o : BinaryOperator) {node : Node}
    (htakes : node.takesOperator = true) (hstate : node.state ≠ .convert)
    (hbehind : AtBlank behind) :
    Gives store messages node.turn (o.operator.spelling.toList ++ behind)
      (.again { node with operator := some o.operator, state := .binary }) behind := by
  refine gives_turn_operator o.mem_table hstate htakes hbehind ?_
  rw [o.arity_eq, if_neg nofun, addOperator, o.arity_eq]
  rfl

/-- A term behind an operator is its operand, or is nested below it. -/
theorem Term.gives_read_operand
    (hstore : store.HoldsConstants) (t : Term)
    {node : Node} (hstate : node.state = .binary) (hoperator : node.operator.isSome = true)
    (hparams : node.params = []) (hbehind : AtBlank behind)
    (ht : t.atom? = none → GivesUnless store messages t.fault? (Node.blank .initial).read
      (t.text ++ behind) t.node behind) :
    GivesUnless store messages t.fault? node.read (t.text ++ behind)
      (node.joining t.atom? t.node) behind := by
  cases hatom : t.atom? with
  | some q =>
    obtain ⟨a, rfl, rfl⟩ := t.eq_atom hatom
    have hturn : GivesUnless store messages a.fault? node.turn (a.text ++ behind)
        (.of (node.addOperand a.quantity)) behind :=
      gives_turn_atom a (.inr hstate) hstore hbehind
    rw [addOperand, hstate, hparams] at hturn
    exact gives_read_done hturn
  | none =>
    -- The node has its operator already, so that it does not take another one.
    obtain ⟨o, ho, rest, htext⟩ := t.text_operator hatom
    have htakes : node.takesOperator = false := by
      cases h : node.operator with
      | none => rw [h] at hoperator; cases hoperator
      | some _ => simp [takesOperator, h, hstate]
    have hturn : Gives store messages node.turn (t.text ++ behind) (.nest node)
        (t.text ++ behind) := by
      rw [htext, List.append_assoc]
      exact gives_turn_nested ho (by rw [hstate]; nofun) htakes (atBlank_cons _)
    exact gives_read_nest hturn (ht hatom)

/-- The node of an operator and the term behind it. -/
theorem Phrase.gives_read_apply
    (hstore : store.HoldsConstants) (e : Phrase)
    (o : BinaryOperator) (t : Term) (hbehind : AtBlank behind)
    (ht : t.atom? = none → GivesUnless store messages t.fault? (Node.blank .initial).read
      (t.text ++ behind) t.node behind) :
    GivesUnless store messages t.fault? e.last.read
      (' ' :: (o.operator.spelling.toList ++ ' ' :: (t.text ++ behind)))
      ({ e.last with operator := some o.operator, state := .binary }.joining t.atom? t.node)
      behind := by
  have hoperator : Gives store messages e.last.turn
      (' ' :: (o.operator.spelling.toList ++ ' ' :: (t.text ++ behind)))
      (.again { e.last with operator := some o.operator, state := .binary })
      (' ' :: (t.text ++ behind)) :=
    (skipsBlanks_turn _).gives (o.gives_turn e.last_takes.1 e.last_takes.2 (atBlank_cons _))
      (skipBlanks_cons _)
  have hoperand := t.gives_read_operand hstore
    (show ({ e.last with operator := some o.operator, state := .binary } : Node).state = .binary
      from rfl) rfl e.last_eq.2.1 hbehind ht
  exact gives_read_again hoperator ((skipsBlanks_read _).gives hoperand (skipBlanks_cons _))

/-- The node of a conversion. -/
theorem Phrase.gives_read_convert (e : Phrase) {s : Measure.Spelling}
    (h : s ∈ Measure.Spelling.table) (hbehind : AtBlank behind) :
    Gives store messages e.last.read
      (' ' :: (Operator.conversion.spelling.toList ++ ' ' :: (s.spelling.toList ++ behind)))
      { e.last with operator := some .conversion, params := [s.target], state := .parsed }
      behind := by
  have hoperator : Gives store messages e.last.turn
      (' ' :: (Operator.conversion.spelling.toList ++ ' ' :: (s.spelling.toList ++ behind)))
      (.again { e.last with operator := some .conversion, state := .convert })
      (' ' :: (s.spelling.toList ++ behind)) :=
    (skipsBlanks_turn _).gives (gives_turn_operator Operator.conversion_mem_table e.last_takes.2
      e.last_takes.1 (atBlank_cons _) rfl) (skipBlanks_cons _)
  have htarget : Gives store messages
      { e.last with operator := some .conversion, state := .convert }.read
      (s.spelling.toList ++ behind)
      { e.last with operator := some .conversion, params := [s.target], state := .parsed }
      behind := by
    have hturn : Gives store messages
        { e.last with operator := some .conversion, state := .convert }.turn
        (s.spelling.toList ++ behind) _ behind := gives_turn_unit h rfl hbehind
    rw [addOperand, e.last_eq.2.1] at hturn
    exact gives_read_done hturn
  exact gives_read_again hoperator ((skipsBlanks_read _).gives htarget (skipBlanks_cons _))

mutual

theorem Term.gives_read
    (hstore : store.HoldsConstants) :
    (t : Term) → t.atom? = none → {behind : List Char} → AtBlank behind →
      GivesUnless store messages t.fault? (Node.blank .initial).read (t.text ++ behind) t.node
        behind
  | .atom _, hatom, _, _ => nomatch hatom
  | .group b e, _, _, hbehind =>
    e.gives_read_group b rfl nofun rfl hbehind fun _ => e.passes hstore
  | .call f e, _, behind, hbehind => by
    have hgroup : GivesUnless store messages e.fault?
        { Node.blank .initial with operator := some f.operator, state := .unary }.read
        (Bracket.round.enclose e.text ++ behind) (Term.call f e).node behind :=
      e.gives_read_group .round rfl nofun rfl hbehind fun _ => e.passes hstore
    rw [Term.text, List.append_assoc, List.cons_append]
    exact gives_read_again (f.gives_turn .round e.text)
      ((skipsBlanks_read _).gives hgroup (skipBlanks_cons _))

/-- A phrase in front of a blank is read into its nodes, up to its first literal with too
    many digits. -/
theorem Phrase.passes
    (hstore : store.HoldsConstants) :
    (e : Phrase) → {behind : List Char} → AtBlank behind →
      Passes store messages e.fault? (.blank .initial) (e.text ++ behind) e.complete e.last behind
  | .term t, behind, hbehind => by
    -- An operand is read into the node on which reading goes on.
    have ht := t.gives_read hstore
    cases t with
    | atom a =>
      have hturn : GivesUnless store messages a.fault? (Node.blank .initial).turn
          (a.text ++ behind) (.again (.seeded a.quantity)) behind :=
        gives_turn_atom a (.inl rfl) hstore hbehind
      exact .of_again hturn
    | group b e =>
      exact .of_next (ht rfl hbehind) (by simp [Term.node, Node.isEmpty]) nofun
    | call f e => exact .of_next (ht rfl hbehind) rfl nofun
  | .apply e o t, behind, hbehind => by
    -- The node the phrase before has come to takes the operator, and the term
    -- behind that completes it.
    have he := e.passes hstore
      (atBlank_cons (o.operator.spelling.toList ++ ' ' :: (t.text ++ behind)))
    have hnode := e.gives_read_apply hstore o t hbehind fun hatom =>
      t.gives_read hstore hatom hbehind
    have htext : (Phrase.apply e o t).text ++ behind =
        e.text ++ ' ' :: (o.operator.spelling.toList ++ ' ' :: (t.text ++ behind)) := by
      simp only [Phrase.text, List.append_assoc, List.cons_append]
    rw [htext]
    have hlast : (Phrase.apply e o t).last = .blank
        (({ e.last with operator := some o.operator, state := .binary } : Node).joining t.atom?
          t.node).state := by
      cases t <;> rfl
    rw [hlast]
    refine he.trans (.of_next hnode ?_ ?_)
    · cases t <;> rfl
    · cases t <;> nofun
  | .convert e s h, behind, hbehind => by
    have he := e.passes hstore
      (atBlank_cons (Operator.conversion.spelling.toList ++ ' ' :: (s.spelling.toList ++ behind)))
    have htext : (Phrase.convert e s h).text ++ behind = e.text ++
        ' ' :: (Operator.conversion.spelling.toList ++ ' ' :: (s.spelling.toList ++ behind)) := by
      simp only [Phrase.text, List.append_assoc, List.cons_append]
    have hpasses := he.trans (.of_next (e.gives_read_convert h hbehind) rfl nofun)
    rw [Option.or_none] at hpasses
    rw [htext]
    exact hpasses

end

/-- What building gives, reading a text comes to, as it goes to the end of it. -/
theorem readText_of_gives {seed : Option Quantity} {text : List Char} {nodes : List Node}
    (h : Gives store messages (build seed) text nodes []) :
    readText seed ⟨text, store, messages⟩ = (.ok nodes, ⟨[], store, messages⟩) := by
  obtain ⟨rest, hbuild, -⟩ := h
  obtain ⟨hrest, -⟩ := (ends_build seed ⟨text, store, messages⟩).of_ok hbuild
  dsimp only at hrest
  rw [readText, hbuild, hrest]

/-- A fault interrupts reading, which says nothing and leaves the store. -/
theorem readText_of_fault {seed : Option Quantity} {text : List Char} {nodes : List Node}
    {f : Fault} (h : GivesUnless store messages (some f) (build seed) text nodes []) :
    ∃ rest, readText seed ⟨text, store, messages⟩ =
      (.error (.fault f), ⟨rest, store, messages⟩) := by
  obtain ⟨rest, hbuild⟩ := h
  refine ⟨rest, ?_⟩
  rw [readText, hbuild]

theorem readText_of_givesUnless {seed : Option Quantity} {text : List Char} {nodes : List Node}
    {fault? : Option Fault} (h : GivesUnless store messages fault? (build seed) text nodes []) :
    ∃ rest, readText seed ⟨text, store, messages⟩ =
      (fault?.elim (.ok nodes) (.error <| .fault ·), ⟨rest, store, messages⟩) := by
  cases fault? with
  | none => exact ⟨[], readText_of_gives h⟩
  | some f => exact readText_of_fault h

/-- A line of an operand, an operator that waits for another one, and that. -/
theorem readText_operation {o : Operator} {left right : Quantity} {text mid mid' : List Char}
    (hleft : Gives store messages (Node.blank .initial).turn text
      (.of ((Node.blank .initial).addOperand left)) mid)
    (hoperator : Gives store messages (seeded left).turn mid
      (.again { seeded left with operator := some o, state := .binary }) mid')
    (hright : Gives store messages { seeded left with operator := some o, state := .binary }.turn
      mid' (.of ({ seeded left with operator := some o, state := .binary }.addOperand right)) []) :
    readText none ⟨text, store, messages⟩ =
      (.ok [⟨.parsed, some o, [left], [right], []⟩], ⟨[], store, messages⟩) := by
  have hread : Gives store messages (Node.blank .initial).read text
      ⟨.parsed, some o, [left], [right], []⟩ [] :=
    gives_read_again hleft (gives_read_again hoperator (gives_read_done hright))
  exact readText_of_gives (gives_readLineOn_next hread rfl (gives_readLineOn_nil _))

theorem Phrase.gives_build (hstore : store.HoldsConstants) (e : Phrase)
    (messages : List Message) :
    GivesUnless store messages e.fault? (build none) e.text e.nodes [] := by
  have hline : GivesUnless store messages e.fault? (build none) (e.text ++ []) e.nodes [] := by
    have hnodes : e.nodes = e.complete ++ if e.last.isEmpty then [] else [e.last] := by
      rw [nodes]
      split
      · rw [List.append_nil]
      · rfl
    rw [hnodes, ← Option.or_none (o := e.fault?)]
    exact (e.passes hstore (.inl rfl)).readLineOn (gives_readLineOn_nil _)
  rwa [List.append_nil] at hline

theorem Atom.exceedsLimit_of_fault? {a : Atom} {f : Fault} (h : a.fault? = some f) :
    f.ExceedsLimit := by
  cases a with
  | literal l => exact Numeral.exceedsLimit_of_fault? h
  | constant c hc => cases h

mutual

theorem Term.exceedsLimit_of_fault? {f : Fault} :
    (t : Term) → t.fault? = some f → f.ExceedsLimit
  | .atom _, h => Atom.exceedsLimit_of_fault? h
  | .group _ e, h => e.exceedsLimit_of_fault? h
  | .call _ e, h => e.exceedsLimit_of_fault? h

theorem Phrase.exceedsLimit_of_fault? {f : Fault} :
    (e : Phrase) → e.fault? = some f → f.ExceedsLimit
  | .term t, h => t.exceedsLimit_of_fault? h
  | .apply e _ t, h => (Option.or_eq_some_iff.1 h).elim e.exceedsLimit_of_fault?
      fun h => t.exceedsLimit_of_fault? h.2
  | .convert e _ _, h => e.exceedsLimit_of_fault? h

end

/-- The text of a phrase is read into its tree, and there is nothing to say. -/
theorem Phrase.readText_text (hstore : store.HoldsConstants) {e : Phrase} (h : e.fault? = none)
    (messages : List Message) :
    readText none ⟨e.text, store, messages⟩ = (.ok e.nodes, ⟨[], store, messages⟩) := by
  have hline := e.gives_build hstore messages
  rw [h] at hline
  exact readText_of_gives hline

/-- A literal with too many digits interrupts reading. -/
theorem Phrase.readText_overlong (hstore : store.HoldsConstants) {e : Phrase} {f : Fault}
    (h : e.fault? = some f) (messages : List Message) :
    ∃ rest, readText none ⟨e.text, store, messages⟩ =
      (.error (.fault f), ⟨rest, store, messages⟩) := by
  have hline := e.gives_build hstore messages
  rw [h] at hline
  exact readText_of_fault hline

end Reckoner
