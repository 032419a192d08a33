import Reckoner.Proofs.Reading.Unclosed

/-!
# The shape of trees

A node is begun in the state of the one before it, and is read on with from there. Of all the
nodes there could be, reading goes on with few (`Node.Begun`): those in which nothing has been
read, those with one operand, and those with an operator that an operand or a group has to
follow. A step makes one of these again, or a node that is complete, by the token that it takes
(`Node.Advances`); nothing else can happen.

So the nodes of a tree have the shape of `Node.Shapely`, and of those of a line only the last
one can be incomplete, where the text has ended (`Node.readText_shapely`).
-/

namespace Reckoner

open Text

/-- The states of a complete node, behind which another one is begun. -/
def NodeState.isComplete : NodeState → Bool
  | .parsed | .function | .paren | .closeParen => true
  | _ => false

namespace Node

/-! ## Nodes that are read on with -/

/-- In the state, a node with the operator waits for an operand. -/
def Awaits (state : NodeState) (o : Operator) : Prop :=
  state = .binary ∧ (o.arity = .binary ∨ o.arity = .assign) ∨
    state = .convert ∧ o.arity = .convert

/-- A node that is read on with in front of the text. -/
inductive Begun : Node → List Char → Prop
  | blank {state : NodeState} {text : List Char} :
    state = .initial ∨ state.isComplete = true → Begun (blank state) text
  | seeded {q : Quantity} {text : List Char} : Begun (seeded q) text
  | waiting {state : NodeState} {o : Operator} {prior : List Quantity} {text : List Char} :
    Awaits state o → prior.length ≤ 1 → Begun ⟨state, some o, prior, [], []⟩ text
  | applying {o : Operator} {prior : List Quantity} {text : List Char} :
    o.arity = .unary → opensGroup text = true → prior.length ≤ 1 →
      Begun ⟨.unary, some o, prior, [], []⟩ text

/-- A line begins with the seed as its first operand, or with nothing. -/
theorem begun_begunWith (seed : Option Quantity) (text : List Char) :
    Begun (begunWith seed) text := by
  cases seed with
  | none => exact .blank (.inl rfl)
  | some q => exact .seeded

section

variable {node : Node} {text : List Char}

theorem Begun.length_prior_le (h : Begun node text) : node.prior.length ≤ 1 := by
  cases h with
  | blank _ => exact Nat.zero_le _
  | seeded => exact Nat.le_refl _
  | waiting _ hprior => exact hprior
  | applying _ _ hprior => exact hprior

end

/-! ## Steps -/

/-- What a step makes of a node that is read on with, by the token that it takes. -/
inductive Advances (r r' : Reader) : Node → Option Token → Turn → Prop
  | ended {node : Node} : skipBlanks r'.rest = [] → Advances r r' node none (.done node)
  | assigned {node : Node} : Node.ahead node.state (skipBlanks r.rest) = .name →
    Advances r r' node none (.again node)
  | operand {state : NodeState} {q : Quantity} :
    (∀ o, Node.ahead state (skipBlanks r.rest) ≠ .operator o) →
      Advances r r' (blank state) (some (.operand q)) (.again (seeded q))
  | product {q q' : Quantity} :
    Advances r r' (seeded q) (some (.operand q'))
      (.done ⟨.parsed, some .multiplication, [q], [q'], []⟩)
  | param {state : NodeState} {o : Operator} {prior : List Quantity} {q : Quantity} :
    Awaits state o →
      Advances r r' ⟨state, some o, prior, [], []⟩ (some (.operand q))
        (.done ⟨.parsed, some o, prior, [q], []⟩)
  | awaits {state state' : NodeState} {o : Operator} {prior : List Quantity} :
    Awaits state' o →
      Advances r r' ⟨state, none, prior, [], []⟩ (some (.operator o))
        (.again ⟨state', some o, prior, [], []⟩)
  | applies {state : NodeState} {o : Operator} {prior : List Quantity} :
    o.arity = .unary → opensGroup (skipBlanks r'.rest) = true →
      Advances r r' ⟨state, none, prior, [], []⟩ (some (.operator o))
        (.again ⟨.unary, some o, prior, [], []⟩)
  | applied {state : NodeState} {o : Operator} {prior : List Quantity} :
    o.arity = .unary ∨ o.arity = .separator →
      Advances r r' ⟨state, none, prior, [], []⟩ (some (.operator o))
        (.done ⟨.function, some o, prior, [], []⟩)
  | closed {state : NodeState} {o : Operator} {prior : List Quantity} :
    o.arity = .groupClose →
      Advances r r' ⟨state, none, prior, [], []⟩ (some (.operator o))
        (.done ⟨.closeParen, none, prior, [], []⟩)
  | opened {state : NodeState} {bound : Option Operator} {o : Operator} {prior : List Quantity} :
    (∀ o ∈ bound, o.arity = .unary) → o.arity = .groupOpen →
      Advances r r' ⟨state, bound, prior, [], []⟩ (some (.operator o))
        (.enter (openGroup ⟨state, bound, prior, [], []⟩ o) o)
  | nested {o : Operator} {prior : List Quantity} :
    Awaits .binary o → (∃ o', Node.ahead .initial (skipBlanks r'.rest) = .operator o') →
      Advances r r' ⟨.binary, some o, prior, [], []⟩ none (.nest ⟨.binary, some o, prior, [], []⟩)

variable {node : Node} {r r' : Reader} {token : Option Token}

theorem addOperand_blank {state : NodeState} (h : state = .initial ∨ state.isComplete = true)
    (q : Quantity) : (blank state).addOperand q = (seeded q, false) := by
  rcases h with rfl | h
  · rfl
  · cases state <;> first | rfl | cases h

theorem Awaits.addOperand {state : NodeState} {o : Operator} (h : Awaits state o)
    (prior : List Quantity) (q : Quantity) :
    (⟨state, some o, prior, [], []⟩ : Node).addOperand q =
      (⟨.parsed, some o, prior, [q], []⟩, true) := by
  rcases h with ⟨rfl, -⟩ | ⟨rfl, -⟩ <;> rfl

theorem Awaits.takesOperator {state : NodeState} {o : Operator} (h : Awaits state o)
    (prior : List Quantity) :
    (⟨state, some o, prior, [], []⟩ : Node).takesOperator = false := by
  rcases h with ⟨rfl, -⟩ | ⟨rfl, -⟩ <;> rfl

/-- A node without an operator takes the one that is ahead. -/
theorem advances_addOperator {state : NodeState} {prior : List Quantity} {o : Operator}
    (hopens : o.arity ≠ .groupOpen) (hrest : skipBlanks r'.rest = r'.rest) :
    Advances r r' ⟨state, none, prior, [], []⟩ (some (.operator o))
      (.of ((⟨state, none, prior, [], []⟩ : Node).addOperator o r'.rest)) := by
  rw [addOperator]
  cases harity : o.arity with
  | binary => exact .awaits (.inl ⟨rfl, .inl harity⟩)
  | assign => exact .awaits (.inl ⟨rfl, .inr harity⟩)
  | convert => exact .awaits (.inr ⟨rfl, harity⟩)
  | unary =>
    dsimp only
    split
    · rename_i hgroup
      exact .applies harity (hrest.symm ▸ hgroup)
    · exact .applied (.inl harity)
  | groupOpen => exact absurd harity hopens
  | groupClose => exact .closed harity
  | separator => exact .applied (.inr harity)

/-- A node that is read on with is such a one again. -/
theorem Begun.next (h : Begun node (skipBlanks r.rest)) {next : Node}
    (hstep : Advances r r' node token (.again next)) : Begun next (skipBlanks r'.rest) := by
  have hprior := h.length_prior_le
  cases hstep with
  | assigned hahead =>
    cases h with
    | blank hstate => exact .blank hstate
    | seeded => exact .seeded
    | waiting hawaits hprior => exact .waiting hawaits hprior
    | applying _ hgroup _ =>
      obtain ⟨opener, hopener, -⟩ := ahead_unary hgroup
      cases hopener.symm.trans hahead
  | operand _ => exact .seeded
  | awaits hawaits => exact .waiting hawaits hprior
  | applies harity hgroup => exact .applying harity hgroup hprior

theorem Begun.advances [DigitLimit] (h : Begun node (skipBlanks r.rest)) {turn : Turn}
    (hturn : node.turn r = .ok turn r') : Advances r r' node (node.token? r) turn := by
  have htook := (ends_turn_took node r).of_ok hturn
  generalize node.token? r = token at htook ⊢
  cases h with
  | @blank state _ hstate =>
    cases htook with
    | ended _ => exact .ended rfl
    | assigned hahead => exact .assigned hahead
    | operand hahead =>
      rw [addOperand_blank hstate]
      exact .operand hahead
    | operator _ _ hopens hrest => exact advances_addOperator hopens hrest
    | opened _ _ hopens => exact .opened nofun hopens
    | nested _ htakes => cases htakes
  | @seeded q _ =>
    cases htook with
    | ended _ => exact .ended rfl
    | assigned hahead => exact .assigned hahead
    | operand _ => exact .product
    | operator _ _ hopens hrest => exact advances_addOperator hopens hrest
    | opened _ _ hopens => exact .opened nofun hopens
    | nested _ htakes => cases htakes
  | @waiting state o prior _ hawaits hprior =>
    have hnests := hawaits.takesOperator prior
    cases htook with
    | ended _ => exact .ended rfl
    | assigned hahead => exact .assigned hahead
    | operand _ =>
      rw [hawaits.addOperand]
      exact .param hawaits
    | operator _ htakes _ _ => exact absurd (hnests.symm.trans htakes) Bool.false_ne_true
    | opened _ htakes _ => exact absurd (hnests.symm.trans htakes) Bool.false_ne_true
    | @nested o' hahead _ =>
      -- Where a unit has to follow, no operator is looked for.
      obtain rfl : state = .binary := by
        rcases hawaits with ⟨rfl, -⟩ | ⟨rfl, -⟩
        · rfl
        · cases hahead
      refine .nested hawaits ⟨o', ?_⟩
      rw [skipBlanks_skipBlanks, ← hahead]
      rfl
  | @applying o prior _ harity hgroup hprior =>
    -- The group that the operator applies to is right ahead.
    obtain ⟨opener, hopener, hopens⟩ := ahead_unary hgroup
    cases htook with
    | ended _ => exact .ended rfl
    | assigned hahead => exact .assigned hahead
    | operand hahead => exact absurd hopener (hahead opener)
    | operator hahead _ hnot _ =>
      cases hopener.symm.trans hahead
      exact absurd hopens hnot
    | opened _ _ hopens => exact .opened (fun _ h => Option.some.inj h ▸ harity) hopens
    | nested _ htakes => cases htakes

/-! ## Shapes -/

/-- The shape of a node, and of all nodes nested in it. -/
inductive Shapely : Node → Prop
  | intro {node : Node}
    (prior : node.prior.length ≤ 1)
    (params : node.params.length ≤ 1)
    (apart : node.params = [] ∨ node.children = [])
    (bound : node.params ≠ [] → node.operator.isSome = true)
    (nests : ∀ o, node.operator = some o →
      o.arity = .binary ∨ o.arity = .assign ∨ o.arity = .convert → node.children.length ≤ 1)
    (closed : ∀ child ∈ node.children.dropLast, child.state ≠ .closeParen)
    (children : ∀ child ∈ node.children, Shapely child) : Shapely node

namespace Shapely

/-- The state is no part of the shape. -/
theorem with_state (h : node.Shapely) (state : NodeState) :
    ({ node with state := state } : Node).Shapely := by
  cases h with
  | intro prior params apart bound nests closed children =>
    exact ⟨prior, params, apart, bound, nests, closed, children⟩

/-- A node with nothing nested in it. -/
theorem leaf {state : NodeState} {operator : Option Operator} {prior params : List Quantity}
    (hprior : prior.length ≤ 1) (hparams : params.length ≤ 1)
    (hbound : params ≠ [] → operator.isSome = true) :
    Shapely ⟨state, operator, prior, params, []⟩ :=
  ⟨hprior, hparams, .inr rfl, hbound, fun _ _ _ => Nat.zero_le _, List.forall_mem_nil _,
    List.forall_mem_nil _⟩

end Shapely

theorem Begun.shapely {text : List Char} (h : Begun node text) : node.Shapely := by
  have hprior := h.length_prior_le
  cases h with
  | blank _ | seeded | waiting _ _ | applying _ _ _ =>
    exact .leaf hprior (Nat.zero_le _) (absurd rfl)

/-- What a step leaves complete. -/
theorem Begun.done (h : Begun node (skipBlanks r.rest)) {node' : Node}
    (hstep : Advances r r' node token (.done node')) :
    node'.Shapely ∧ (skipBlanks r'.rest = [] ∨ node'.state.isComplete = true) := by
  have hprior := h.length_prior_le
  cases hstep with
  | ended hend => exact ⟨h.shapely, .inl hend⟩
  | product => exact ⟨.leaf (Nat.le_refl _) (Nat.le_refl _) fun _ => rfl, .inr rfl⟩
  | param _ => exact ⟨.leaf hprior (Nat.le_refl _) fun _ => rfl, .inr rfl⟩
  | applied _ => exact ⟨.leaf hprior (Nat.zero_le _) fun _ => rfl, .inr rfl⟩
  | closed _ => exact ⟨.leaf hprior (Nat.zero_le _) (absurd rfl), .inr rfl⟩

/-- What a step leaves to be completed by a nested node. -/
theorem Begun.nest (h : Begun node (skipBlanks r.rest)) {outer child : Node}
    (hstep : Advances r r' node token (.nest outer)) (hchild : child.Shapely) :
    (outer.nesting child).Shapely := by
  have hprior := h.length_prior_le
  cases hstep with
  | nested _ _ =>
    exact ⟨hprior, Nat.zero_le _, .inl rfl, absurd rfl, fun _ _ _ => Nat.le_refl _,
      List.forall_mem_nil _, List.forall_mem_singleton.2 hchild⟩

/-- A group leaves the operator of its node as it is, or is opened by it. -/
theorem operator_openGroup {o o' : Operator} (h : (node.openGroup o).operator = some o') :
    node.operator = some o' ∨ o = o' := by
  rw [openGroup] at h
  dsimp only at h
  split at h
  · exact (Option.or_eq_some_iff.1 h).imp id fun h => Option.some.inj h.2
  · exact .inl h

/-- Nothing is nested in a node before its group. -/
theorem Advances.children_eq_nil {outer : Node} {opener : Operator}
    (h : Advances r r' node token (.enter outer opener)) : outer.children = [] := by
  cases h with
  | opened _ _ => rfl

/-- What a step leaves to be completed by the nodes of a group. -/
theorem Begun.enter (h : Begun node (skipBlanks r.rest)) {outer : Node} {opener : Operator}
    {children : List Node} (hstep : Advances r r' node token (.enter outer opener))
    (hchildren : ∀ n ∈ children, n.Shapely)
    (hclosed : ∀ n ∈ children.dropLast, n.state ≠ .closeParen) :
    ({ outer with children := children } : Node).Shapely ∧ outer.state = .paren := by
  have hprior := h.length_prior_le
  cases hstep with
  | @opened state bound o prior hbound hopens =>
    refine ⟨⟨hprior, Nat.zero_le _, .inl rfl, absurd rfl, fun o' ho' harity => ?_, hclosed,
      hchildren⟩, rfl⟩
    -- The operator of a group applies to all of it.
    have hnot : o'.arity = .unary ∨ o'.arity = .groupOpen := by
      rcases operator_openGroup ho' with hsome | rfl
      · exact .inl (hbound o' hsome)
      · exact .inr hopens
    rcases hnot with hnot | hnot <;> rw [hnot] at harity <;> simp at harity

/-! ## Trees -/

theorem shapely_markUnclosed {nodes : List Node} (h : ∀ n ∈ nodes, n.Shapely) :
    ∀ n ∈ markUnclosed nodes, n.Shapely :=
  forall_mem_markUnclosed h fun _ hn => hn.with_state .errored

theorem dropLast_markUnclosed (nodes : List Node) :
    (markUnclosed nodes).dropLast = nodes.dropLast := by
  rw [markUnclosed]
  split
  · exact List.dropLast_concat
  · rfl

theorem mem_dropLast_append {nodes nodes' : List Node} (h : node ∈ (nodes ++ nodes').dropLast) :
    node ∈ nodes ∨ node ∈ nodes'.dropLast := by
  by_cases hnil : nodes' = []
  · subst hnil
    rw [List.append_nil] at h
    exact .inl (List.dropLast_subset _ h)
  · rw [List.dropLast_append_of_ne_nil hnil] at h
    exact List.mem_append.1 h

/-- The shape of the nodes that the part is read into. -/
def Part.Shapes (part : Part) (r : Reader) (nodes : List Node) (r' : Reader) : Prop :=
  match part with
  | .node node => Begun node (skipBlanks r.rest) → ∃ node', nodes = [node'] ∧ node'.Shapely ∧
      (skipBlanks r'.rest = [] ∨ node'.state.isComplete = true)
  | .group _ state before =>
    (skipBlanks r.rest = [] ∨ state = .initial ∨ state.isComplete = true) →
      (∀ n ∈ before, n.Shapely ∧ n.state ≠ .closeParen) →
      (∀ n ∈ nodes, n.Shapely) ∧ ∀ n ∈ nodes.dropLast, n.state ≠ .closeParen
  | .line node => Begun node (skipBlanks r.rest) →
      (∀ n ∈ nodes, n.Shapely) ∧ ∀ n ∈ nodes.dropLast, n.state.isComplete = true

/-- The node waits for an operand. -/
def Waits (node : Node) : Prop :=
  node.state = .number ∧ node.operator = none ∨ node.state = .binary ∨ node.state = .convert

theorem Waits.isComplete_eq (h : node.Waits) : node.state.isComplete = false := by
  rcases h with ⟨hstate, -⟩ | hstate | hstate <;> rw [hstate] <;> rfl

section

variable [DigitLimit]

/-- By induction on the reading: each node is begun in a state that the one before it has been
    completed in, and so is such a node again. -/
theorem Reads.shapes {part : Part} {tokens : List Token} {nodes : List Node}
    (h : Reads part r tokens nodes r') : part.Shapes r nodes r' := by
  induction h with
  | done hturn =>
    intro hbegun
    exact ⟨_, rfl, hbegun.done (hbegun.advances hturn)⟩
  | again hturn _ ih =>
    intro hbegun
    exact ih (hbegun.next (hbegun.advances hturn))
  | nest hturn _ ih =>
    intro hbegun
    -- The outer node is complete with the nested one, in whatever state that is.
    obtain ⟨child, hchild, hshapely, -⟩ := ih (.blank (.inl rfl))
    obtain rfl := List.singleton_inj.1 hchild
    exact ⟨_, rfl, hbegun.nest (hbegun.advances hturn) hshapely, .inr rfl⟩
  | enter hturn _ ih =>
    intro hbegun
    have hstep := hbegun.advances hturn
    have hnone := hstep.children_eq_nil
    obtain ⟨hshapely, hclosed⟩ := ih (.inr (.inl rfl)) (hnone ▸ List.forall_mem_nil _)
    obtain ⟨hnode, hstate⟩ := hbegun.enter hstep hshapely hclosed
    exact ⟨_, rfl, hnode, .inr (congrArg NodeState.isComplete hstate)⟩
  | unclosed _ =>
    -- Only the last node of a group left open is given another state.
    intro _ hbefore
    rw [dropLast_markUnclosed]
    exact ⟨shapely_markUnclosed fun n hn => (hbefore n hn).1,
      fun n hn => (hbefore n (List.dropLast_subset _ hn)).2⟩
  | closed hmore _ _ ih =>
    intro hstate hbefore
    obtain ⟨node', hnode', hshapely, -⟩ := ih (.blank (hstate.resolve_left hmore))
    obtain rfl := List.singleton_inj.1 hnode'
    rw [List.dropLast_concat]
    exact ⟨List.forall_mem_append.2
      ⟨fun n hn => (hbefore n hn).1, List.forall_mem_singleton.2 hshapely⟩,
      fun n hn => (hbefore n hn).2⟩
  | within hmore _ hopen _ ihNode ihGroup =>
    intro hstate hbefore
    obtain ⟨node', hnode', hshapely, hcomplete⟩ := ihNode (.blank (hstate.resolve_left hmore))
    obtain rfl := List.singleton_inj.1 hnode'
    exact ihGroup (hcomplete.imp_right .inr) (List.forall_mem_append.2
      ⟨hbefore, List.forall_mem_singleton.2 ⟨hshapely, hopen⟩⟩)
  | last _ _ ih =>
    intro hbegun
    obtain ⟨node', hnode', hshapely, -⟩ := ih hbegun
    obtain rfl := List.singleton_inj.1 hnode'
    split
    · exact ⟨List.forall_mem_nil _, List.forall_mem_nil _⟩
    · exact ⟨List.forall_mem_singleton.2 hshapely, List.forall_mem_nil _⟩
  | @next _ node' nodes _ _ _ _ _ _ hmore _ ihNode ihLine =>
    intro hbegun
    obtain ⟨node', hnode', hshapely, hcomplete⟩ := ihNode hbegun
    obtain rfl := List.singleton_inj.1 hnode'
    have hcomplete := hcomplete.resolve_left hmore
    obtain ⟨hnodes, hlast⟩ := ihLine (.blank (.inr hcomplete))
    -- A node in which nothing has been read is left out.
    have hread {P : Node → Prop} (h : P node') :
        ∀ n ∈ if node'.isEmpty then [] else [node'], P n := by
      split
      · exact List.forall_mem_nil _
      · exact List.forall_mem_singleton.2 h
    refine ⟨List.forall_mem_append.2 ⟨hread hshapely, hnodes⟩, fun n hn => ?_⟩
    rcases mem_dropLast_append hn with hn | hn
    · exact hread (P := fun n => n.state.isComplete = true) hcomplete n hn
    · exact hlast n hn

/-- A node is read until it is complete, or the text ends. -/
theorem Reads.complete {tokens : List Token} {node' : Node}
    (h : Reads (.node node) r tokens [node'] r') (hbegun : Begun node (skipBlanks r.rest)) :
    skipBlanks r'.rest = [] ∨ node'.state.isComplete = true := by
  obtain ⟨node'', hnode, -, hcomplete⟩ := h.shapes hbegun
  obtain rfl := List.singleton_inj.1 hnode
  exact hcomplete

/-- All nodes of a tree are shapely. Those of the line are complete but for the last one; so a
    node that waits for an operand is the last one, and nothing of the text is left. -/
theorem readText_shapely {seed : Option Quantity} {nodes : List Node}
    (h : (readText seed r).1 = .ok nodes) :
    (∀ node ∈ nodes, node.Shapely) ∧
      (∀ node ∈ nodes.dropLast, node.state.isComplete = true) ∧
      ∀ before node after, nodes = before ++ node :: after → node.Waits →
        after = [] ∧ (readText seed r).2.rest = [] := by
  obtain ⟨hshapely, hcomplete⟩ := (reads_readText h).shapes (begun_begunWith seed _)
  have hends := readText_says seed r
  rw [h] at hends
  obtain ⟨_, -, hrest, -⟩ := hends
  refine ⟨hshapely, hcomplete, fun before node after hnodes hwaits => ⟨?_, hrest⟩⟩
  by_contra hafter
  have hmem : node ∈ nodes.dropLast := by
    rw [hnodes, List.dropLast_append_cons, List.dropLast_cons_of_ne_nil hafter]
    exact List.mem_append_right _ List.mem_cons_self
  exact absurd ((hcomplete node hmem).symm.trans hwaits.isComplete_eq) (by decide)

end

/-- A product of a number and a group, a number behind it, and a sum without its second term. -/
theorem readText_shapely_products : ∃ nodes,
    (readText none ⟨"2*(3-1) 4 +".toList, Store.initial, []⟩).1 = .ok nodes ∧
      (∀ node ∈ nodes, node.Shapely) ∧ ∀ node ∈ nodes.dropLast, node.state.isComplete = true := by
  have hread : (readText none ⟨"2*(3-1) 4 +".toList, Store.initial, []⟩).1.isOk = true := by
    decide +kernel
  obtain ⟨nodes, hnodes⟩ := exists_of_isOk hread
  have hshapely := readText_shapely hnodes
  exact ⟨nodes, hnodes, hshapely.1, hshapely.2.1⟩

end Node

end Reckoner
