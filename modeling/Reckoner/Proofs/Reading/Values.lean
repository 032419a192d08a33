import Reckoner.Proofs.Abreast
import Reckoner.Proofs.Reading.Operands
import Reckoner.Proofs.Reading.Places

/-!
# Reading without the values of variables

What a text is read into depends on the constants of the store alone. With stores that have
the same constants (`Store.Matches`), and whatever variables, the same texts can be read,
into trees that are the same but for the values that variables stand for (`Node.Matches`);
reading says the same, comes equally far and gives values to the same names in the same
order (`Node.readText_matches`). The values go into operands, and no step that reading takes
looks at one again.
-/

namespace Reckoner

open Text Build

/-! ## The same but for values -/

/-- The same operand, but for the value of a variable. -/
inductive Quantity.Matches : Quantity → Quantity → Prop
  | refl (q : Quantity) : Matches q q
  | named {q q' : Quantity} : q.isVariable = true → q'.isVariable = true →
    q.isConstant = false → q'.isConstant = false → q.name = q'.name → Matches q q'

/-- Operands that match, or assignments to the same name. -/
inductive Mention.Matches : Mention → Mention → Prop
  | operand {q q' : Quantity} : q.Matches q' → Matches (.operand q) (.operand q')
  | assignment {q q' : Quantity} : q.name = q'.name → Matches (.assignment q) (.assignment q')

/-- All entries stand for their names, and the constants are the same. -/
structure Store.Matches (s s' : Store) : Prop where
  hasNames : s.HasNames
  hasNames' : s'.HasNames
  constants : ∀ name e, e.isConstant = true → (s.find? name = some e ↔ s'.find? name = some e)

/-- The same but for the values of variables. -/
structure Reader.Matches (r r' : Reader) : Prop where
  rest : r.rest = r'.rest
  store : r.store.Matches r'.store
  messages : r.messages = r'.messages

/-- Nodes of the same shape, with the same operators and with operands that match. -/
inductive Node.Matches : Node → Node → Prop
  | intro {node node' : Node} (state : node.state = node'.state)
    (operator : node.operator = node'.operator)
    (prior : List.Forall₂ Quantity.Matches node.prior node'.prior)
    (params : List.Forall₂ Quantity.Matches node.params node'.params)
    (children : List.Forall₂ Node.Matches node.children node'.children) : Matches node node'

/-- Trees that match, or the same reason for there being none. -/
inductive Node.TreesMatch : Except Halt (List Node) → Except Halt (List Node) → Prop
  | trees {nodes nodes' : List Node} : List.Forall₂ Node.Matches nodes nodes' →
    TreesMatch (.ok nodes) (.ok nodes')
  | none (why : Halt) : TreesMatch (.error why) (.error why)

/-! ## Stores -/

namespace Store

variable {s s' : Store} {q q' : Quantity} {name : String}

/-- A name stands for itself, with a value or without one. -/
theorem HasNames.isVariable_named (h : s.HasNames) (name : String) :
    (Quantity.named s name).isVariable = true := by
  rw [Quantity.named, lookup?]
  cases hfind : s.find? name with
  | none => rfl
  | some e => exact h e (List.mem_of_find?_eq_some hfind)

theorem isConstant_named (h : s.hasConstant name = false) :
    (Quantity.named s name).isConstant = false := by
  rw [hasConstant] at h
  rw [Quantity.named, lookup?]
  cases hfind : s.find? name with
  | none => rfl
  | some e =>
    rw [hfind] at h
    exact h

namespace Matches

theorem hasConstant (h : s.Matches s') (name : String) :
    s.hasConstant name = s'.hasConstant name := by
  rw [Bool.eq_iff_iff, Store.hasConstant, Store.hasConstant, Option.any_eq_true, Option.any_eq_true]
  exact exists_congr fun e => and_congr_left fun he => h.constants name e he

/-- A name stands for the same constant, or for a variable of that name. -/
theorem named (h : s.Matches s') (name : String) :
    (Quantity.named s name).Matches (Quantity.named s' name) := by
  have hconstant := h.hasConstant name
  cases hname : s.hasConstant name with
  | true =>
    obtain ⟨e, hfind, he⟩ := (Option.any_eq_true _ _).1 hname
    rw [Quantity.named, Quantity.named, lookup?, lookup?, hfind, (h.constants name e he).1 hfind]
    exact .refl _
  | false =>
    rw [hname] at hconstant
    exact .named (h.hasNames.isVariable_named name) (h.hasNames'.isVariable_named name)
      (isConstant_named hname) (isConstant_named hconstant.symm)
      ((Quantity.name_named s name).trans (Quantity.name_named s' name).symm)

theorem refl (h : s.HasNames) : s.Matches s := ⟨h, h, fun _ _ _ => Iff.rfl⟩

/-- A variable can be put into one of them. -/
theorem put_right (h : s.Matches s') (hname : s.hasConstant q.name = false) (description : String) :
    s.Matches (s'.put ⟨kept q, description⟩) := by
  refine ⟨h.hasNames, h.hasNames'.put rfl, fun name e he => ?_⟩
  have hentry : (Entry.mk (kept q) description).name = q.name := rfl
  rw [find?_put, hentry]
  split
  · -- What is found there is not a constant, as it was not before.
    rename_i heq
    subst heq
    refine iff_of_false (fun hfind => ?_) ?_
    · rw [Store.hasConstant, hfind] at hname
      exact Bool.false_ne_true (hname.symm.trans he)
    · rintro ⟨rfl⟩
      cases he
  · exact h.constants name e he

/-- Variables of the same name can be put into both. -/
theorem put (h : s.Matches s') (hname : q.name = q'.name) (description description' : String) :
    (s.put ⟨kept q, description⟩).Matches (s'.put ⟨kept q', description'⟩) := by
  refine ⟨h.hasNames.put rfl, h.hasNames'.put rfl, fun name e he => ?_⟩
  have hentry : (Entry.mk (kept q) description).name = q.name := rfl
  have hentry' : (Entry.mk (kept q') description').name = q'.name := rfl
  rw [find?_put, find?_put, hentry, hentry', hname]
  split
  · -- What is kept is not a constant.
    constructor
    · rintro ⟨rfl⟩
      cases he
    · rintro ⟨rfl⟩
      cases he
  · exact h.constants name e he

/-- A name can be given a value in both, or in neither for the same reason. -/
theorem assign (h : s.Matches s') (hname : q.name = q'.name) :
    (∃ t t', s.assign q = .ok t ∧ s'.assign q' = .ok t' ∧ t.Matches t') ∨
      ∃ f, s.assign q = .error f ∧ s'.assign q' = .error f := by
  by_cases hnamed : q.name = ""
  · refine .inr ⟨.unnamedTarget, ?_, ?_⟩
    · exact if_pos (beq_iff_eq.2 hnamed)
    · exact if_pos (beq_iff_eq.2 (hname ▸ hnamed))
  · have hconstant := h.hasConstant q.name
    cases hq : s.hasConstant q.name with
    | true =>
      refine .inr ⟨_, assign_of_hasConstant hnamed hq, ?_⟩
      rw [hname] at hnamed hq hconstant ⊢
      exact assign_of_hasConstant hnamed (hconstant.symm.trans hq)
    | false =>
      obtain ⟨description, hassign⟩ := exists_assign_eq_ok hnamed hq
      rw [hname] at hnamed hq hconstant
      obtain ⟨description', hassign'⟩ := exists_assign_eq_ok hnamed (hconstant.symm.trans hq)
      exact .inl ⟨_, _, hassign, hassign', h.put hname description description'⟩

end Matches

end Store

/-! ## Reading names -/

namespace Quantity

variable {q q' : Quantity}

theorem Matches.name_eq (h : q.Matches q') : q.name = q'.name := by
  cases h with
  | refl => rfl
  | named _ _ _ _ hname => exact hname

theorem Matches.with_measure (h : q.Matches q') (m : Measure) :
    ({ q with measure := m } : Quantity).Matches { q' with measure := m } := by
  cases h with
  | refl => exact .refl _
  | named hq hq' hc hc' hname => exact .named hq hq' hc hc' hname

theorem abreast_readMeasure (h : q.Matches q') :
    Abreast Eq Matches q.readMeasure q'.readMeasure := by
  refine abreast_get.bind_eq fun text => ?_
  cases Measure.Spelling.begins? text with
  | none => exact abreast_throw _
  | some s =>
    exact (abreast_same _).bind_eq fun _ => abreast_pure (h.with_measure s.measure)

theorem abreast_readNameMeasure (h : q.Matches q') :
    Abreast Eq Matches q.readNameMeasure q'.readNameMeasure := by
  refine abreast_get.bind_eq fun text => ?_
  split
  · exact (abreast_same _).bind_eq fun _ => abreast_readMeasure h
  · exact abreast_pure h

variable [DigitLimit]

theorem abreast_readAssignment (h : q.Matches q') :
    Abreast Eq Mention.Matches q.readAssignment q'.readAssignment := by
  refine abreast_get.bind_eq fun text => ?_
  split
  · refine (abreast_same _).bind_eq fun _ => ?_
    exact (abreast_same readLiteral).bind_eq fun literal => abreast_pure (.assignment h.name_eq)
  · exact abreast_pure (.operand h)

/-- A name is read alike with stores that match. -/
theorem abreast_readName {s s' : Store} (h : s.Matches s') :
    Abreast Eq Mention.Matches (readName s) (readName s') := by
  refine (abreast_same _).bind_eq fun _ => ?_
  refine abreast_get.bind_eq fun text => ?_
  dsimp only
  split
  · exact abreast_throw _
  · refine (abreast_same _).bind_eq fun _ => ?_
    exact (abreast_readNameMeasure (h.named _)).bind fun _ _ => abreast_readAssignment

end Quantity

/-! ## Steps of building -/

theorem Reader.Matches.skipBlanks {r r' : Reader} (h : r.Matches r') :
    ({ r with rest := Text.skipBlanks r.rest } : Reader).Matches
      { r' with rest := Text.skipBlanks r'.rest } :=
  ⟨congrArg Text.skipBlanks h.rest, h.store, h.messages⟩

namespace Build

theorem abreast_scan {α α' : Type} {Q : α → α' → Prop} {s : Scan α} {s' : Scan α'}
    (h : Abreast Eq Q s s') : Abreast Reader.Matches Q (scan s) (scan s') := by
  intro r r' hr
  have hagree := h r.rest r'.rest hr.rest
  rw [scan, scan]
  generalize s r.rest = result at hagree ⊢
  generalize s' r'.rest = result' at hagree ⊢
  cases hagree with
  | ok hQ hrest => exact .ok hQ ⟨hrest, hr.store, hr.messages⟩
  | error hrest => exact .error ⟨hrest, hr.store, hr.messages⟩

theorem abreast_ahead : Abreast Reader.Matches Eq ahead ahead :=
  fun _ _ hr => .ok hr.skipBlanks.rest hr.skipBlanks

theorem abreast_warnUnclosed (o : Operator) :
    Abreast Reader.Matches Eq (warnUnclosed o) (warnUnclosed o) :=
  abreast_modify fun _ _ hr => ⟨hr.rest, hr.store, congrArg (· ++ _) hr.messages⟩

variable [DigitLimit]

theorem abreast_mention : Abreast Reader.Matches (Option.Rel Quantity.Matches) mention mention := by
  refine abreast_get.bind fun r r' hr => ?_
  refine (abreast_scan (Quantity.abreast_readName hr.store)).bind fun m m' hm => ?_
  cases hm with
  | operand hq => exact abreast_pure (.some hq)
  | assignment hname =>
    rcases hr.store.assign hname with ⟨t, t', hassign, hassign', ht⟩ | ⟨f, hassign, hassign'⟩
    · simp only [hassign, hassign']
      exact (abreast_modify fun _ _ hr => ⟨hr.rest, ht, hr.messages⟩).bind_eq
        fun _ => abreast_pure .none
    · simp only [hassign, hassign']
      exact abreast_throw _

end Build

/-! ## Adding to a node -/

namespace Node

variable {node node' : Node} {nodes nodes' : List Node} {q q' : Quantity}

/-- What becomes of two nodes that match. -/
inductive Turn.Matches : Turn → Turn → Prop
  | done {node node' : Node} : node.Matches node' → Matches (.done node) (.done node')
  | again {node node' : Node} : node.Matches node' → Matches (.again node) (.again node')
  | nest {node node' : Node} : node.Matches node' → Matches (.nest node) (.nest node')
  | enter {node node' : Node} {o : Operator} : node.Matches node' →
    Matches (.enter node o) (.enter node' o)

theorem isEmpty_of_forall₂ {α : Type} {S : α → α → Prop} {l l' : List α} (h : List.Forall₂ S l l') :
    l.isEmpty = l'.isEmpty := by
  cases h <;> rfl

namespace Matches

theorem state_eq (h : node.Matches node') : node.state = node'.state := by
  cases h with
  | intro state _ _ _ _ => exact state

theorem operator_eq (h : node.Matches node') : node.operator = node'.operator := by
  cases h with
  | intro _ operator _ _ _ => exact operator

theorem prior (h : node.Matches node') :
    List.Forall₂ Quantity.Matches node.prior node'.prior := by
  cases h with
  | intro _ _ prior _ _ => exact prior

theorem params (h : node.Matches node') :
    List.Forall₂ Quantity.Matches node.params node'.params := by
  cases h with
  | intro _ _ _ params _ => exact params

theorem children (h : node.Matches node') :
    List.Forall₂ Matches node.children node'.children := by
  cases h with
  | intro _ _ _ _ children => exact children

theorem blank (state : NodeState) : (blank state).Matches (Node.blank state) :=
  ⟨rfl, rfl, .nil, .nil, .nil⟩

theorem begunWith (seed : Option Quantity) : (begunWith seed).Matches (Node.begunWith seed) := by
  cases seed with
  | none => exact blank .initial
  | some q => exact ⟨rfl, rfl, .cons (.refl q) .nil, .nil, .nil⟩

/-- The operator and the state may be set to others, in both. -/
theorem with_operator (h : node.Matches node') (o : Option Operator) (state : NodeState) :
    ({ node with operator := o, state := state } : Node).Matches
      { node' with operator := o, state := state } :=
  ⟨rfl, rfl, h.prior, h.params, h.children⟩

theorem with_children (h : node.Matches node') (hnodes : List.Forall₂ Matches nodes nodes') :
    ({ node with children := nodes } : Node).Matches { node' with children := nodes' } :=
  ⟨h.state_eq, h.operator_eq, h.prior, h.params, hnodes⟩

theorem takesOperator_eq (h : node.Matches node') : node.takesOperator = node'.takesOperator := by
  rw [takesOperator, takesOperator, h.state_eq, h.operator_eq]

theorem isEmpty_eq (h : node.Matches node') : node.isEmpty = node'.isEmpty := by
  rw [isEmpty, isEmpty, h.operator_eq, isEmpty_of_forall₂ h.prior, isEmpty_of_forall₂ h.params,
    isEmpty_of_forall₂ h.children]

/-- An operand goes to the same place. -/
theorem addOperand (h : node.Matches node') (hq : q.Matches q') :
    (Turn.of (node.addOperand q)).Matches (Turn.of (node'.addOperand q')) := by
  have hprior := List.rel_append h.prior (.cons hq .nil)
  have hparams := List.rel_append h.params (.cons hq .nil)
  rw [Node.addOperand, Node.addOperand, h.state_eq, h.operator_eq, isEmpty_of_forall₂ h.prior,
    isEmpty_of_forall₂ h.params]
  split
  · exact .done ⟨rfl, rfl, h.prior, hparams, h.children⟩
  · split
    · exact .done ⟨rfl, rfl, h.prior, hparams, h.children⟩
    · exact .again ⟨rfl, rfl, hprior, h.params, h.children⟩

theorem addOperator (h : node.Matches node') (o : Operator) (text : List Char) :
    (Turn.of (node.addOperator o text)).Matches (Turn.of (node'.addOperator o text)) := by
  rw [Node.addOperator, Node.addOperator, h.operator_eq]
  split
  case h_1 | h_2 | h_4 => exact .again (h.with_operator _ _)
  case h_3 =>
    split
    · exact .again (h.with_operator _ _)
    · exact .done (h.with_operator _ _)
  all_goals exact .done (h.with_operator _ _)

theorem openGroup (h : node.Matches node') (o : Operator) :
    (node.openGroup o).Matches (node'.openGroup o) := by
  rw [Node.openGroup, Node.openGroup, h.operator_eq]
  exact h.with_operator _ _

theorem nesting (h : node.Matches node') {child child' : Node} (hchild : child.Matches child') :
    (node.nesting child).Matches (node'.nesting child') :=
  ⟨rfl, h.operator_eq, h.prior, h.params, List.rel_append h.children (.cons hchild .nil)⟩

theorem markUnclosed (h : List.Forall₂ Matches nodes nodes') :
    List.Forall₂ Matches (markUnclosed nodes) (Node.markUnclosed nodes') := by
  induction h with
  | nil => exact .nil
  | cons hnode hnodes ih =>
    cases hnodes with
    | nil =>
      refine .cons ⟨rfl, ?_, ?_, ?_, ?_⟩ .nil
      · exact hnode.operator_eq
      · exact hnode.prior
      · exact hnode.params
      · exact hnode.children
    | cons hnext hrest => exact .cons hnode ih

end Matches

/-! ## All of reading -/

section

variable [DigitLimit]

/-- Nodes that match are read on with by the same, and match again. -/
theorem abreast_proceed (h : node.Matches node') (ahead : Ahead) :
    Abreast Reader.Matches Turn.Matches (node.proceed ahead) (node'.proceed ahead) := by
  cases ahead with
  | target =>
    exact (abreast_scan (abreast_same Quantity.readTarget)).bind_eq fun q =>
      abreast_pure (h.addOperand (.refl q))
  | number =>
    exact (abreast_scan (abreast_same Quantity.readLiteral)).bind_eq fun q =>
      abreast_pure (h.addOperand (.refl q))
  | name =>
    refine abreast_mention.bind fun mentioned mentioned' hmentioned => ?_
    cases hmentioned with
    | none => exact abreast_pure (.again h)
    | some hq => exact abreast_pure (h.addOperand hq)
  | operator o =>
    rw [proceed, proceed, h.takesOperator_eq]
    split
    · refine (abreast_scan (abreast_same _)).bind_eq fun _ => ?_
      refine abreast_ahead.bind_eq fun text => ?_
      split
      · exact abreast_pure (.enter (h.openGroup o))
      · exact abreast_pure (h.addOperator o text)
    · exact abreast_pure (.nest h)

theorem abreast_turn (h : node.Matches node') :
    Abreast Reader.Matches Turn.Matches node.turn node'.turn := by
  refine abreast_ahead.bind_eq fun text => ?_
  rw [h.state_eq]
  split
  · exact abreast_pure (.done h)
  · exact abreast_proceed h _

/-- As nodes that match are in the same state, reading goes on and ends with both at once. -/
theorem abreast_reading (steps : Nat) :
    (∀ node node' : Node, node.Matches node' →
      Abreast Reader.Matches Matches (readOn steps node) (readOn steps node')) ∧
    ∀ (o : Operator) (state : NodeState) (nodes nodes' : List Node),
      List.Forall₂ Matches nodes nodes' →
      Abreast Reader.Matches (List.Forall₂ Matches) (readGroup steps o state nodes)
        (readGroup steps o state nodes') := by
  induction steps with
  | zero => exact ⟨fun _ _ h => abreast_pure h, fun _ _ _ _ h => abreast_pure h⟩
  | succ steps ih =>
    obtain ⟨ihNode, ihGroup⟩ := ih
    constructor
    · intro node node' h
      refine (abreast_turn h).bind fun turn turn' hturn => ?_
      cases hturn with
      | done h => exact abreast_pure h
      | again h => exact ihNode _ _ h
      | nest h =>
        exact (ihNode _ _ (.blank _)).bind fun _ _ hchild => abreast_pure (h.nesting hchild)
      | enter h =>
        exact (ihGroup _ _ _ _ h.children).bind fun _ _ hnodes =>
          abreast_pure (h.with_children hnodes)
    · intro o state nodes nodes' h
      refine abreast_ahead.bind_eq fun text => ?_
      split
      · exact (abreast_warnUnclosed o).bind_eq fun _ => abreast_pure (Matches.markUnclosed h)
      · refine (ihNode _ _ (.blank state)).bind fun node node' hnode => ?_
        have hnodes := List.rel_append h (.cons hnode .nil)
        rw [hnode.state_eq]
        split
        · exact abreast_pure hnodes
        · exact ihGroup _ _ _ _ hnodes

theorem abreast_readLine (count : Nat) (h : node.Matches node') :
    Abreast Reader.Matches (List.Forall₂ Matches) (readLine count node) (readLine count node') := by
  induction count generalizing node node' with
  | zero => exact abreast_pure .nil
  | succ count ih =>
    refine abreast_get.bind fun r r' hr => ?_
    rw [hr.rest]
    refine ((abreast_reading _).1 _ _ h).bind fun node node' hnode => ?_
    have hread : List.Forall₂ Matches (if node.isEmpty then [] else [node])
        (if node'.isEmpty then [] else [node']) := by
      rw [hnode.isEmpty_eq]
      split
      · exact .nil
      · exact .cons hnode .nil
    refine abreast_ahead.bind_eq fun text => ?_
    split
    · exact abreast_pure hread
    · rw [hnode.state_eq]
      exact (ih (.blank _)).bind fun _ _ hrest => abreast_pure (List.rel_append hread hrest)

theorem abreast_build (seed : Option Quantity) :
    Abreast Reader.Matches (List.Forall₂ Matches) (build seed) (build seed) := by
  refine abreast_get.bind fun r r' hr => ?_
  rw [hr.rest]
  exact abreast_readLine _ (.begunWith seed)

/-! ## The places of a reading -/

/-- The same node is read on with, and the same is left to read. -/
def PlacesMatch (place place' : Node × Reader) : Prop :=
  place.1.Matches place'.1 ∧ place.2.Matches place'.2

variable {r r' : Reader}

theorem placesOn_matches (steps : Nat) :
    (∀ (node node' : Node) (r r' : Reader), node.Matches node' → r.Matches r' →
      List.Forall₂ PlacesMatch (placesOn steps node r) (placesOn steps node' r')) ∧
    ∀ (state : NodeState) (r r' : Reader), r.Matches r' →
      List.Forall₂ PlacesMatch (placesWithin steps state r) (placesWithin steps state r') := by
  induction steps with
  | zero => exact ⟨fun _ _ _ _ _ _ => .nil, fun _ _ _ _ => .nil⟩
  | succ steps ih =>
    obtain ⟨ihNode, ihGroup⟩ := ih
    constructor
    · intro node node' r r' h hr
      rw [placesOn, placesOn]
      refine .cons ⟨h, hr⟩ ?_
      have hturn := abreast_turn h r r' hr
      generalize node.turn r = result at hturn ⊢
      generalize node'.turn r' = result' at hturn ⊢
      cases hturn with
      | error _ => exact .nil
      | ok hturn hr =>
        cases hturn with
        | done _ => exact .nil
        | again h => exact ihNode _ _ _ _ h hr
        | nest _ => exact ihNode _ _ _ _ (.blank _) hr
        | enter _ => exact ihGroup _ _ _ hr
    · intro state r r' hr
      have hahead := hr.skipBlanks
      rw [placesWithin, placesWithin]
      generalize ({ r with rest := Text.skipBlanks r.rest } : Reader) = r at hahead ⊢
      generalize ({ r' with rest := Text.skipBlanks r'.rest } : Reader) = r' at hahead ⊢
      rw [hahead.rest]
      split
      · exact .nil
      refine List.rel_append (ihNode _ _ _ _ (.blank state) hahead) ?_
      have hread := (abreast_reading steps).1 _ _ (.blank state) r r' hahead
      generalize readOn steps (blank state) r = result at hread ⊢
      generalize readOn steps (blank state) r' = result' at hread ⊢
      cases hread with
      | error _ => exact .nil
      | ok hnode hr =>
        dsimp only
        rw [hnode.state_eq]
        split
        · exact .nil
        · exact ihGroup _ _ _ hr

theorem placesAlong_matches (count : Nat) (h : node.Matches node') (hr : r.Matches r') :
    List.Forall₂ PlacesMatch (placesAlong count node r) (placesAlong count node' r') := by
  induction count generalizing node node' r r' with
  | zero => exact .nil
  | succ count ih =>
    rw [placesAlong, placesAlong, hr.rest]
    refine List.rel_append ((placesOn_matches _).1 _ _ _ _ h hr) ?_
    have hread := (abreast_reading (enoughSteps r'.rest)).1 _ _ h r r' hr
    generalize readOn (enoughSteps r'.rest) node r = result at hread ⊢
    generalize readOn (enoughSteps r'.rest) node' r' = result' at hread ⊢
    cases hread with
    | error _ => exact .nil
    | ok hnode hr =>
      have hahead := hr.skipBlanks
      simp only [hr.rest, hnode.state_eq] at hahead ⊢
      split
      · exact .nil
      · exact ih (.blank _) hahead

theorem places_matches (seed : Option Quantity) (hr : r.Matches r') :
    List.Forall₂ PlacesMatch (places seed r) (places seed r') := by
  rw [places, places, hr.rest]
  exact placesAlong_matches _ (.begunWith seed) hr

/-- At places that match, the same name is given a value, or none is. -/
theorem assigned?_eq (h : node.Matches node') (hr : r.Matches r') :
    node.assigned? r = node'.assigned? r' := by
  rw [assigned?, assigned?, h.state_eq, hr.rest]
  have hread := Quantity.abreast_readName hr.store (skipBlanks r'.rest) _ rfl
  generalize Quantity.readName r.store (skipBlanks r'.rest) = result at hread ⊢
  generalize Quantity.readName r'.store (skipBlanks r'.rest) = result' at hread ⊢
  cases Node.ahead node'.state (skipBlanks r'.rest) with
  | target | number | operator _ => rfl
  | name =>
    cases hread with
    | error _ => rfl
    | ok hmention _ =>
      cases hmention with
      | operand _ => rfl
      | assignment hname =>
        rcases hr.store.assign hname with ⟨t, t', hassign, hassign', -⟩ | ⟨f, hassign, hassign'⟩
        · simp only [hassign, hassign', hname]
        · simp only [hassign, hassign']

theorem assignedNames_eq (seed : Option Quantity) (hr : r.Matches r') :
    assignedNames seed r = assignedNames seed r' := by
  have hplaces := places_matches seed hr
  rw [assignedNames, assignedNames]
  generalize places seed r = l at hplaces ⊢
  generalize places seed r' = l' at hplaces ⊢
  induction hplaces with
  | nil => rfl
  | cons hplace _ ih =>
    rw [List.filterMap_cons, List.filterMap_cons, assigned?_eq hplace.1 hplace.2, ih]

/-- With stores that have the same constants, a text is read alike: into trees that match, or
    into none, with the same to say and the same left to read; and the same names are given
    values in the same order, each by an inline assignment. -/
theorem readText_matches {s s' : Store} (h : s.Matches s') (seed : Option Quantity)
    (text : List Char) (messages : List Message) :
    TreesMatch (readText seed ⟨text, s, messages⟩).1 (readText seed ⟨text, s', messages⟩).1 ∧
      (readText seed ⟨text, s, messages⟩).2.Matches (readText seed ⟨text, s', messages⟩).2 ∧
      assignedNames seed ⟨text, s, messages⟩ = assignedNames seed ⟨text, s', messages⟩ ∧
      ∀ name ∈ assignedNames seed ⟨text, s, messages⟩,
        AssignsInline name (.line (begunWith seed)) ⟨text, s, messages⟩ := by
  have hr : Reader.Matches ⟨text, s, messages⟩ ⟨text, s', messages⟩ := ⟨rfl, h, rfl⟩
  have hbuild := abreast_build seed _ _ hr
  rw [← and_assoc]
  refine ⟨?_, assignedNames_eq seed hr, fun _ => assignsInline_of_mem⟩
  rw [readText, readText]
  generalize build seed ⟨text, s, messages⟩ = result at hbuild ⊢
  generalize build seed ⟨text, s', messages⟩ = result' at hbuild ⊢
  cases hbuild with
  | ok hnodes hr => exact ⟨.trees hnodes, hr⟩
  | @error snag _ _ hr =>
    cases snag with
    | failure f => exact ⟨.none _, hr.rest, hr.store, congrArg (· ++ _) hr.messages⟩
    | fault f => exact ⟨.none _, hr⟩

end

/-- A store in which `x` is five. -/
def storeOfFive : Store :=
  Store.initial.put ⟨Store.kept { magnitude := .whole 5, name := "x" }, ""⟩

/-- Whether `x` is five or has no value makes no difference to reading. -/
theorem readText_matches_five :
    Store.initial.Matches storeOfFive ∧
      TreesMatch (readText none ⟨"y=3 x(y z=2".toList, Store.initial, []⟩).1
        (readText none ⟨"y=3 x(y z=2".toList, storeOfFive, []⟩).1 ∧
      assignedNames none ⟨"y=3 x(y z=2".toList, Store.initial, []⟩ = ["y", "z"] ∧
      assignedNames none ⟨"y=3 x(y z=2".toList, storeOfFive, []⟩ = ["y", "z"] := by
  have hmatches : Store.initial.Matches storeOfFive :=
    (Store.Matches.refl (Store.Reachable.ofConstants Constant.table).hasNames).put_right rfl ""
  have hnames : assignedNames none ⟨"y=3 x(y z=2".toList, Store.initial, []⟩ = ["y", "z"] := by
    decide +kernel
  obtain ⟨htrees, -, hassigned, -⟩ := readText_matches hmatches none "y=3 x(y z=2".toList []
  exact ⟨hmatches, htrees, hnames, hassigned.symm.trans hnames⟩

end Node

end Reckoner
