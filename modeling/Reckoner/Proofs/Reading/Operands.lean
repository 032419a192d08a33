import Reckoner.Proofs.Inherited
import Reckoner.Proofs.Reading.Steady
import Reckoner.Proofs.Store

/-!
# What the operands of a tree have in common

The operands of a tree are quantities that reading makes of literals, units and
names, and the seed. An inherited property (`Quantity.Inherited`) that the seed
has is one of all operands in the tree (`Node.each_of_readText`), those of
nested nodes included (`Node.Each`). Names are given values meanwhile, so that
what is known of the store is passed on along with it
(`Node.store_of_readText`).

One such property is that a quantity that stands for a name has one
(`Quantity.inherited_isNamed`).
-/

namespace Reckoner

open Build

/-! ## Reading quantities -/

/-- An operand has the property, and an assignment is to a name that has it, of a
    literal that has it. -/
def Mention.Each (P : Quantity → Prop) : Mention → Prop
  | .operand q => P q
  | .assignment q => ∃ target literal, P target ∧ P literal ∧ q = target.assigned literal

namespace Quantity

variable {I : Store → Prop} {P : Quantity → Prop} {q : Quantity}

section

variable (hP : Passed I P)
include hP

theorem reads_readMeasure (h : P q) (text : List Char) :
    Ends q.readMeasure text (fun q _ => P q) fun _ _ => True := by
  refine ends_bind.2 (ends_get.2 ?_)
  split
  · trivial
  · rename_i hbegins
    exact hP.measured h (.inl (Measure.Spelling.isKnown_of_begins? hbegins))

theorem reads_readSuffixPart (h : P q) (text : List Char) :
    Ends q.readSuffixPart text (fun part _ => P part.1) fun _ _ => True := by
  rw [readSuffixPart]
  refine ends_bind.2 (ends_get.2 ?_)
  split
  · exact h
  · exact h
  · exact hP.formatted _ h
  · exact ends_bind.2 (ends_modify.2 (ends_bind.2 (reads_readMeasure hP h _)))
  · split
    · exact h
    · rename_i hbegins
      split
      · exact h
      · exact hP.measured h (.inl (Measure.Spelling.isKnown_of_begins? hbegins))

theorem reads_readSuffix (steps : Nat) (h : P q) (text : List Char) :
    Ends (q.readSuffix steps) text (fun q _ => P q) fun _ _ => True := by
  induction steps generalizing q text with
  | zero => exact h
  | succ steps ih =>
    refine ends_bind.2 ((reads_readSuffixPart hP h text).mono (fun part rest hpart => ?_)
      fun _ _ h => h)
    obtain ⟨q, more⟩ := part
    cases more with
    | true => exact ih hpart rest
    | false => exact hpart

variable [DigitLimit]

theorem reads_readLiteral (text : List Char) :
    Ends readLiteral text (fun q _ => P q) fun _ _ => True := by
  refine ends_bind.2 (ends_modify.2 (ends_bind.2 (ends_get.2 ?_)))
  split
  · exact hP.makes _ _ _ _ (.inl Measure.isKnown_plain)
  · split
    · trivial
    · exact ends_bind.2 (ends_set.2 (ends_bind.2 (ends_takeNumeral
        (fun _ => reads_readSuffix hP _ (hP.makes _ _ _ _ (.inl Measure.isKnown_plain)) _)
        fun _ _ => trivial)))

theorem reads_readTarget (text : List Char) :
    Ends readTarget text (fun q _ => P q) fun _ _ => True := by
  refine ends_bind.2 (ends_modify.2 (ends_bind.2 (ends_get.2 ?_)))
  split
  · exact reads_readLiteral hP _
  · refine ends_bind.2 (ends_modify.2 (ends_bind.2 ?_))
    have hzero : P { magnitude := .whole 0 } := hP.makes _ _ _ _ (.inl Measure.isKnown_plain)
    refine (reads_readMeasure hP hzero _).mono (fun q rest h => ?_) fun _ _ h => h
    refine ends_bind.2 (ends_get.2 ?_)
    split
    · exact hP.formatted _ h
    · exact h

end

variable [DigitLimit]

theorem reads_readName (hP : Inherited I P) {store : Store} (hstore : I store)
    (text : List Char) :
    Ends (readName store) text (fun m _ => m.Each P) fun _ _ => True := by
  refine ends_bind.2 (ends_modify.2 (ends_bind.2 (ends_get.2 ?_)))
  dsimp only
  split
  · trivial
  · rename_i hname
    have hnamed : P (named store _) := hP.named hstore fun h => hname (beq_iff_eq.2 h)
    have hmeasure : ∀ {q : Quantity} (text : List Char), P q →
        Ends q.readNameMeasure text (fun q _ => P q) fun _ _ => True := by
      intro q text h
      refine ends_bind.2 (ends_get.2 ?_)
      split
      · exact ends_bind.2 (ends_modify.2 (reads_readMeasure hP.toPassed h _))
      · exact h
    refine ends_bind.2 (ends_modify.2 (ends_bind.2 ?_))
    refine (hmeasure _ hnamed).mono (fun q rest h => ?_) fun _ _ h => h
    refine ends_bind.2 (ends_get.2 ?_)
    split
    · refine ends_bind.2 (ends_modify.2 (ends_bind.2 ?_))
      exact (reads_readLiteral hP.toPassed _).mono
        (fun literal _ hliteral => ⟨q, literal, h, hliteral, rfl⟩) fun _ _ h => h
    · exact h

end Quantity

/-! ## Steps of building -/

namespace Build

variable {α β : Type} {I : Store → Prop} {R : α → Prop} {T : β → Prop}

/-- As far as `I` holds of the store, it does so afterwards, and results have the
    property. -/
def Yields (I : Store → Prop) (R : α → Prop) (x : Build α) : Prop :=
  ∀ r : Reader, I r.store → Ends x r (fun a r' => R a ∧ I r'.store) fun _ r' => I r'.store

theorem Yields.bind {x : Build α} {f : α → Build β} (hx : Yields I R x)
    (hf : ∀ a, R a → Yields I T (f a)) : Yields I T (x >>= f) := fun r hr =>
  ends_bind.2 ((hx r hr).mono (fun a r' h => hf a h.1 r' h.2) fun _ _ h => h)

theorem yields_pure {a : α} (h : R a) : Yields I R (pure a) := fun _ hr => ⟨h, hr⟩

theorem yields_get : Yields I (fun _ => True) get := fun _ hr => ⟨trivial, hr⟩

theorem yields_scan {s : Scan α} (hs : ∀ text, Ends s text (fun a _ => R a) fun _ _ => True) :
    Yields I R (scan s) := fun r hr =>
  ends_scan.2 ((hs r.rest).mono (fun _ _ h => ⟨h, hr⟩) fun _ _ _ => hr)

theorem yields_ahead : Yields I (fun _ => True) ahead := fun _ hr => ⟨trivial, hr⟩

theorem yields_warnUnclosed (o : Operator) : Yields I (fun _ => True) (warnUnclosed o) :=
  fun _ hr => ⟨trivial, hr⟩

variable [DigitLimit]

theorem yields_mention {P : Quantity → Prop} (hP : Quantity.Inherited I P) :
    Yields I (fun mentioned => ∀ q, mentioned = some q → P q) mention := by
  intro r hr
  refine ends_bind.2 (ends_get.2 (ends_bind.2 (ends_scan.2 ?_)))
  refine (Quantity.reads_readName hP hr _).mono (fun m _ hm => ?_) fun _ _ _ => hr
  cases m with
  | operand q => exact ⟨fun _ h => Option.some.inj h ▸ hm, hr⟩
  | assignment q =>
    obtain ⟨target, literal, htarget, hliteral, rfl⟩ := hm
    dsimp only
    split
    · rename_i hassign
      refine ⟨fun q hq => absurd hq (Option.not_mem_none q), ?_⟩
      refine hP.assigned _ _ _ hr htarget ?_ hassign
      exact (Quantity.lends_measure hliteral).orElse (Quantity.lends_measure htarget)
    · exact hr

end Build

/-! ## The operands of nodes -/

namespace Node

/-- All operands of the node, and of those nested in it, have the property. -/
inductive Each (P : Quantity → Prop) : Node → Prop
  | intro {node : Node} (prior : ∀ q ∈ node.prior, P q) (params : ∀ q ∈ node.params, P q)
    (children : ∀ child ∈ node.children, Each P child) : Each P node

variable {P : Quantity → Prop} {node : Node}

namespace Each

theorem prior (h : node.Each P) : ∀ q ∈ node.prior, P q := by
  cases h with
  | intro prior _ _ => exact prior

theorem params (h : node.Each P) : ∀ q ∈ node.params, P q := by
  cases h with
  | intro _ params _ => exact params

theorem children (h : node.Each P) : ∀ child ∈ node.children, child.Each P := by
  cases h with
  | intro _ _ children => exact children

theorem blank (state : NodeState) : (blank state).Each P :=
  ⟨List.forall_mem_nil _, List.forall_mem_nil _, List.forall_mem_nil _⟩

theorem seeded {q : Quantity} (h : P q) : (seeded q).Each P :=
  ⟨List.forall_mem_singleton.2 h, List.forall_mem_nil _, List.forall_mem_nil _⟩

/-- Neither the operator nor the state matters. -/
theorem with_operator (h : node.Each P) (o : Option Operator) (state : NodeState) :
    ({ node with operator := o, state := state } : Node).Each P :=
  ⟨h.prior, h.params, h.children⟩

theorem with_children {nodes : List Node} (h : node.Each P) (hnodes : ∀ n ∈ nodes, n.Each P) :
    ({ node with children := nodes } : Node).Each P :=
  ⟨h.prior, h.params, hnodes⟩

end Each

/-- The quantity is an operand of the node, or of one nested in it. -/
inductive HasOperand (q : Quantity) : Node → Prop
  | prior {node : Node} : q ∈ node.prior → HasOperand q node
  | params {node : Node} : q ∈ node.params → HasOperand q node
  | child {node child : Node} : child ∈ node.children → HasOperand q child → HasOperand q node

theorem Each.of_hasOperand {node : Node} {q : Quantity} (h : node.Each P)
    (hq : node.HasOperand q) : P q := by
  induction hq with
  | prior hmem => exact h.prior q hmem
  | params hmem => exact h.params q hmem
  | child hmem _ ih => exact ih (h.children _ hmem)

theorem each_of_forall : (node : Node) → (∀ q, node.HasOperand q → P q) → node.Each P
  | ⟨_, _, _, _, children⟩, h =>
    ⟨fun q hmem => h q (.prior hmem), fun q hmem => h q (.params hmem), fun child hmem =>
      have : sizeOf child < sizeOf children := List.sizeOf_lt_of_mem hmem
      each_of_forall child fun q hq => h q (.child hmem hq)⟩
termination_by node => sizeOf node

/-! ## Adding to a node -/

theorem each_addOperand (h : node.Each P) {q : Quantity} (hq : P q) :
    (node.addOperand q).1.Each P := by
  rw [addOperand]
  split
  · exact ⟨h.prior, List.forall_mem_append.2 ⟨h.params, List.forall_mem_singleton.2 hq⟩, h.children⟩
  · split
    · exact ⟨h.prior, List.forall_mem_append.2 ⟨h.params, List.forall_mem_singleton.2 hq⟩,
        h.children⟩
    · exact ⟨List.forall_mem_append.2 ⟨h.prior, List.forall_mem_singleton.2 hq⟩, h.params,
        h.children⟩

theorem each_addOperator (h : node.Each P) (o : Operator) (text : List Char) :
    (node.addOperator o text).1.Each P := by
  rw [addOperator]
  split
  case h_3 =>
    split
    · exact h.with_operator _ _
    · exact h.with_operator _ _
  all_goals exact h.with_operator _ _

theorem each_markUnclosed {nodes : List Node} (h : ∀ n ∈ nodes, n.Each P) :
    ∀ n ∈ markUnclosed nodes, n.Each P :=
  forall_mem_markUnclosed h fun n hn => hn.with_operator n.operator .errored

/-! ## Reading -/

/-- All operands that the step has read have the property. -/
def Turn.Each (P : Quantity → Prop) : Turn → Prop
  | done node | again node | nest node | enter node _ => node.Each P

theorem Turn.each_of {p : Node × Bool} (h : p.1.Each P) : (Turn.of p).Each P := by
  obtain ⟨node, complete⟩ := p
  cases complete <;> exact h

section

variable {I : Store → Prop} (hP : Quantity.Inherited I P)
include hP

variable [DigitLimit]

theorem yields_proceed (h : node.Each P) (ahead : Ahead) :
    Yields I (Turn.Each P) (node.proceed ahead) := by
  cases ahead with
  | target =>
    exact (yields_scan (Quantity.reads_readTarget hP.toPassed)).bind fun q hq =>
      yields_pure (Turn.each_of (each_addOperand h hq))
  | number =>
    exact (yields_scan (Quantity.reads_readLiteral hP.toPassed)).bind fun q hq =>
      yields_pure (Turn.each_of (each_addOperand h hq))
  | name =>
    refine (yields_mention hP).bind fun mentioned hmentioned => ?_
    cases mentioned with
    | none => exact yields_pure h
    | some q => exact yields_pure (Turn.each_of (each_addOperand h (hmentioned q rfl)))
  | operator o =>
    rw [proceed]
    split
    · refine (yields_scan (R := fun _ => True) fun _ => ends_modify.2 trivial).bind fun _ _ =>
        yields_ahead.bind fun text _ => ?_
      split
      · exact yields_pure (h.with_operator _ _)
      · exact yields_pure (Turn.each_of (each_addOperator h _ _))
    · exact yields_pure h

theorem yields_turn (h : node.Each P) : Yields I (Turn.Each P) node.turn := by
  refine yields_ahead.bind fun text _ => ?_
  split
  · exact yields_pure h
  · exact yields_proceed hP h _

theorem yields_reading (steps : Nat) :
    (∀ node : Node, node.Each P → Yields I (fun node => node.Each P) (readOn steps node)) ∧
    ∀ (o : Operator) (state : NodeState) (nodes : List Node), (∀ n ∈ nodes, n.Each P) →
      Yields I (fun nodes => ∀ n ∈ nodes, n.Each P) (readGroup steps o state nodes) := by
  induction steps with
  | zero => exact ⟨fun _ h => yields_pure h, fun _ _ _ h => yields_pure h⟩
  | succ steps ih =>
    obtain ⟨ihNode, ihGroup⟩ := ih
    constructor
    · intro node h
      refine (yields_turn hP h).bind fun turn hturn => ?_
      cases turn with
      | done node => exact yields_pure hturn
      | again node => exact ihNode node hturn
      | nest node =>
        -- The nested node begins with no operands.
        refine (ihNode _ (.blank .initial)).bind fun child hchild => yields_pure ?_
        exact ⟨hturn.prior, hturn.params,
          List.forall_mem_append.2 ⟨hturn.children, List.forall_mem_singleton.2 hchild⟩⟩
      | enter node o =>
        exact (ihGroup o .initial _ hturn.children).bind fun nodes hnodes =>
          yields_pure (hturn.with_children hnodes)
    · intro o state nodes h
      refine yields_ahead.bind fun text _ => ?_
      split
      · exact (yields_warnUnclosed o).bind fun _ _ => yields_pure (each_markUnclosed h)
      · refine (ihNode _ (.blank state)).bind fun node hnode => ?_
        have hnodes := List.forall_mem_append.2 ⟨h, List.forall_mem_singleton.2 hnode⟩
        split
        · exact yields_pure hnodes
        · exact ihGroup o _ _ hnodes

theorem yields_readLine (nodes : Nat) (h : node.Each P) :
    Yields I (fun nodes => ∀ n ∈ nodes, n.Each P) (readLine nodes node) := by
  induction nodes generalizing node with
  | zero => exact yields_pure (List.forall_mem_nil _)
  | succ nodes ih =>
    refine yields_get.bind fun r _ => ((yields_reading hP _).1 node h).bind fun node hnode => ?_
    have hread : ∀ n ∈ if node.isEmpty then [] else [node], n.Each P := by
      split
      · exact List.forall_mem_nil _
      · exact List.forall_mem_singleton.2 hnode
    refine yields_ahead.bind fun text _ => ?_
    split
    · exact yields_pure hread
    · exact (ih (.blank _)).bind fun rest hrest =>
        yields_pure (List.forall_mem_append.2 ⟨hread, hrest⟩)

variable {seed : Option Quantity} (hseed : ∀ q, seed = some q → P q)
include hseed

theorem yields_build : Yields I (fun nodes => ∀ n ∈ nodes, n.Each P) (build seed) := by
  refine yields_get.bind fun r _ => yields_readLine hP _ ?_
  cases seed with
  | some q => exact .seeded (hseed q rfl)
  | none => exact .blank .initial

variable {r : Reader} (hr : I r.store)
include hr

/-- All operands that reading a text comes to have the property. -/
theorem each_of_readText {nodes : List Node} (h : (readText seed r).1 = .ok nodes) :
    ∀ n ∈ nodes, n.Each P :=
  ((yields_build hP hseed r hr).of_ok (build_of_readText h)).1

/-- What is known of the store is still known once a text is read. -/
theorem store_of_readText : I (readText seed r).2.store := by
  rw [readText]
  cases hx : build seed r with
  | ok nodes r' => exact ((yields_build hP hseed r hr).of_ok hx).2
  | error snag r' =>
    have hstore : I r'.store := (yields_build hP hseed r hr).of_error hx
    cases snag <;> exact hstore

end

end Node

/-! ## Names -/

namespace Quantity

/-- A quantity that stands for a name has one. -/
def IsNamed (q : Quantity) : Prop :=
  q.isVariable = true → q.name ≠ ""

theorem name_named (store : Store) (name : String) : (named store name).name = name := by
  rw [named, Store.lookup?]
  cases h : store.find? name with
  | none => rfl
  | some e => exact Store.name_of_find? h

theorem inherited_isNamed : Inherited (fun _ => True) IsNamed where
  makes _ _ _ _ _ := nofun
  measured h _ := h
  formatted _ h := h
  named {store name} _ h := fun _ => (name_named store name).symm ▸ h
  lent {_ _ e} _ _ := .inr ⟨{ magnitude := .whole 0, measure := e.quantity.measure }, nofun, rfl⟩
  valued _ _ _ h hvariable _ := fun _ => h hvariable
  assigned _ _ _ _ _ _ _ := trivial

end Quantity

end Reckoner
