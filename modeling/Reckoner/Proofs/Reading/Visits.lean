import Reckoner.Proofs.Reading.Induction
import Reckoner.Proofs.Store

/-!
# Where reading comes to

Reading a line goes on with one node after another, each time with what is left of
the text (`Node.ComesTo`). At such a place an operator may be taken off the text, or
a name may be given a value (`Node.AssignsInline`); all else that is done there leaves
neither an operator in the tree nor a trace in the store. So what holds of the
operators that are taken holds of all operators in the tree, and the store changes at
the names that are assigned to, and nowhere else (`Node.readText_admits`). Of a text
without `=` that means that it changes nothing (`Node.assignsNothing_of_notMem`).
-/

namespace Reckoner

open Text Build

namespace Node

/-! ## Operators in the tree -/

/-- All operators of the node, and of those nested in it, are in `Q`. -/
inductive Operators (Q : Operator → Prop) : Node → Prop
  | intro {node : Node} (operator : ∀ o, node.operator = some o → Q o)
    (children : ∀ child ∈ node.children, Operators Q child) : Operators Q node

variable {Q : Operator → Prop} {N : String → Prop} {node : Node} {r : Reader}

namespace Operators

theorem operator (h : node.Operators Q) : ∀ o, node.operator = some o → Q o := by
  cases h with
  | intro operator _ => exact operator

theorem children (h : node.Operators Q) : ∀ child ∈ node.children, child.Operators Q := by
  cases h with
  | intro _ children => exact children

theorem blank (state : NodeState) : (blank state).Operators Q :=
  ⟨nofun, List.forall_mem_nil _⟩

/-- Neither the operands nor the state matter. -/
theorem of_eq (h : node.Operators Q) {node' : Node} (hoperator : node'.operator = node.operator)
    (hchildren : node'.children = node.children) : node'.Operators Q :=
  ⟨hoperator ▸ h.operator, hchildren ▸ h.children⟩

theorem with_operator (h : node.Operators Q) {node' : Node} {o : Operator} (ho : Q o)
    (hoperator : node'.operator = some o) (hchildren : node'.children = node.children) :
    node'.Operators Q :=
  ⟨fun o' ho' => by
    obtain rfl : o = o' := Option.some.inj (hoperator.symm.trans ho')
    exact ho, hchildren ▸ h.children⟩

/-- Two operands in a row are multiplied. -/
theorem addOperand (h : node.Operators Q) (hmul : Q .multiplication) (q : Quantity) :
    (node.addOperand q).1.Operators Q := by
  rw [Node.addOperand]
  split
  · exact h.of_eq rfl rfl
  · split
    · exact h.with_operator hmul rfl rfl
    · exact h.of_eq rfl rfl

theorem addOperator (h : node.Operators Q) {o : Operator} (ho : Q o) (text : List Char) :
    (node.addOperator o text).1.Operators Q := by
  rw [Node.addOperator]
  split
  case h_5 | h_6 => exact h.of_eq rfl rfl
  case h_3 => split <;> exact h.with_operator ho rfl rfl
  all_goals exact h.with_operator ho rfl rfl

theorem openGroup (h : node.Operators Q) {o : Operator} (ho : Q o) :
    (node.openGroup o).Operators Q := by
  refine ⟨fun o' ho' => ?_, h.children⟩
  rw [Node.openGroup] at ho'
  dsimp only at ho'
  split at ho'
  · rcases Option.or_eq_some_iff.1 ho' with hnode | ⟨-, hopener⟩
    · exact h.operator o' hnode
    · exact Option.some.inj hopener ▸ ho
  · exact h.operator o' ho'

theorem nesting (h : node.Operators Q) {child : Node} (hchild : child.Operators Q) :
    (node.nesting child).Operators Q :=
  ⟨h.operator, List.forall_mem_append.2 ⟨h.children, List.forall_mem_singleton.2 hchild⟩⟩

theorem markUnclosed {nodes : List Node} (h : ∀ n ∈ nodes, n.Operators Q) :
    ∀ n ∈ markUnclosed nodes, n.Operators Q :=
  forall_mem_markUnclosed h fun _ hn => hn.of_eq rfl rfl

end Operators

/-- All operators that the step has left in the node are in `Q`. -/
def Turn.Operators (Q : Operator → Prop) : Turn → Prop
  | done node | again node | nest node | enter node _ => node.Operators Q

theorem Turn.operators_of {p : Node × Bool} (h : p.1.Operators Q) : (Turn.of p).Operators Q := by
  obtain ⟨node, complete⟩ := p
  cases complete <;> exact h

/-! ## Places -/

/-- What is read: on with a node, the nodes of a group behind others, or those of a
    line. -/
inductive Part
  | node (node : Node)
  | group (opener : Operator) (state : NodeState) (nodes : List Node)
  | line (node : Node)

/-- The node that a line begins with. -/
def begunWith : Option Quantity → Node
  | some q => seeded q
  | none => blank .initial

variable [DigitLimit]

/-- A tree is built from there on. -/
theorem build_eq (seed : Option Quantity) (r : Reader) :
    build seed r = (begunWith seed).readLineOn r := by
  cases seed <;> rfl

/-- Reading the part comes to where the node is read on with. -/
inductive ComesTo (goal : Node) (there : Reader) : Part → Reader → Prop
  | here : ComesTo goal there (.node goal) there
  | again {node node' : Node} {r r' : Reader} :
    node.turn r = .ok (.again node') r' → ComesTo goal there (.node node') r' →
      ComesTo goal there (.node node) r
  | nest {node node' : Node} {r r' : Reader} :
    node.turn r = .ok (.nest node') r' → ComesTo goal there (.node (blank .initial)) r' →
      ComesTo goal there (.node node) r
  | enter {node node' : Node} {opener : Operator} {r r' : Reader} :
    node.turn r = .ok (.enter node' opener) r' →
      ComesTo goal there (.group opener .initial node'.children) r' →
      ComesTo goal there (.node node) r
  | first {opener : Operator} {begun : NodeState} {nodes : List Node} {r : Reader} :
    skipBlanks r.rest ≠ [] →
      ComesTo goal there (.node (blank begun)) { r with rest := skipBlanks r.rest } →
      ComesTo goal there (.group opener begun nodes) r
  | later {opener : Operator} {begun : NodeState} {nodes : List Node} {node : Node}
    {r r' : Reader} :
    skipBlanks r.rest ≠ [] →
      (blank begun).read { r with rest := skipBlanks r.rest } = .ok node r' →
      node.state ≠ .closeParen →
      ComesTo goal there (.group opener node.state (nodes ++ [node])) r' →
      ComesTo goal there (.group opener begun nodes) r
  | begun {node : Node} {r : Reader} :
    ComesTo goal there (.node node) r → ComesTo goal there (.line node) r
  | next {node node' : Node} {r r' : Reader} :
    node.read r = .ok node' r' → skipBlanks r'.rest ≠ [] →
      ComesTo goal there (.line (blank node'.state)) { r' with rest := skipBlanks r'.rest } →
      ComesTo goal there (.line node) r

/-- In reading the part, a literal is assigned to the name, as in `y=3`. -/
def AssignsInline (name : String) (part : Part) (r : Reader) : Prop :=
  ∃ node there target rest, ComesTo node there part r ∧
    Node.ahead node.state (skipBlanks there.rest) = .name ∧
    Quantity.readName there.store (skipBlanks there.rest) = .ok (.assignment target) rest ∧
    target.name = name

/-- An operator that is taken at the place is in `Q`, and a name that is assigned to there
    is in `N`. -/
structure Admits (Q : Operator → Prop) (N : String → Prop) (node : Node) (r : Reader) : Prop where
  operator : ∀ o, Node.ahead node.state (skipBlanks r.rest) = .operator o →
    node.takesOperator = true → Q o
  name : ∀ target rest, Node.ahead node.state (skipBlanks r.rest) = .name →
    Quantity.readName r.store (skipBlanks r.rest) = .ok (.assignment target) rest → N target.name

/-- All places that reading the part comes to are such. -/
def Part.Admits (Q : Operator → Prop) (N : String → Prop) (part : Part) (r : Reader) : Prop :=
  ∀ node there, ComesTo node there part r → node.Admits Q N there

/-! ## One step -/

/-- Where a name is read, the store may change at the name that is assigned to. -/
theorem ends_mention (h : ∀ target rest,
      Quantity.readName r.store r.rest = .ok (.assignment target) rest → N target.name) :
    Ends mention r (fun _ r' => r.store.ChangesOnly N r'.store)
      fun _ r' => r.store.ChangesOnly N r'.store := by
  refine ends_bind.2 (ends_get.2 (ends_bind.2 (ends_scan.2 ?_)))
  refine ends_iff.2 ⟨fun mentioned rest hread => ?_, fun _ _ _ => .refl N r.store⟩
  cases mentioned with
  | operand q => exact .refl N r.store
  | assignment q =>
    dsimp only
    split
    · rename_i hassign
      exact .of_assign hassign (h q rest hread)
    · exact .refl N r.store

section

variable (hmul : Q .multiplication)
include hmul

/-- A step adds no operator but one that is taken, and changes the store at most at a
    name that is assigned to. -/
theorem ends_turn_admits (hplace : node.Admits Q N r) (hnode : node.Operators Q) :
    Ends node.turn r (fun turn r' => turn.Operators Q ∧ r.store.ChangesOnly N r'.store)
      fun _ r' => r.store.ChangesOnly N r'.store := by
  refine ends_bind.2 (ends_ahead.2 ?_)
  split
  · exact ⟨hnode, .refl N r.store⟩
  have hoperator := hplace.operator
  have hname := hplace.name
  generalize Node.ahead node.state (skipBlanks r.rest) = ahead at hoperator hname ⊢
  cases ahead with
  | target =>
    refine ends_bind.2 (ends_scan.2 ((ends_true _ _).mono (fun q _ _ => ?_) fun _ _ _ => ?_))
    · exact ⟨Turn.operators_of (hnode.addOperand hmul q), .refl N r.store⟩
    · exact .refl N r.store
  | number =>
    refine ends_bind.2 (ends_scan.2 ((ends_true _ _).mono (fun q _ _ => ?_) fun _ _ _ => ?_))
    · exact ⟨Turn.operators_of (hnode.addOperand hmul q), .refl N r.store⟩
    · exact .refl N r.store
  | name =>
    have hmention : Ends mention { r with rest := skipBlanks r.rest } _ _ :=
      ends_mention fun target rest => hname target rest rfl
    refine ends_bind.2 (hmention.mono (fun mentioned r' h => ?_) fun _ _ h => h)
    cases mentioned with
    | none => exact ⟨hnode, h⟩
    | some q => exact ⟨Turn.operators_of (hnode.addOperand hmul q), h⟩
  | operator o =>
    rw [proceed]
    split
    · rename_i htakes
      have ho := hoperator o rfl htakes
      refine ends_bind.2 (ends_scan.2 (ends_modify.2 (ends_bind.2 (ends_ahead.2 ?_))))
      split
      · exact ⟨hnode.openGroup ho, .refl N r.store⟩
      · exact ⟨Turn.operators_of (hnode.addOperator ho _), .refl N r.store⟩
    · exact ⟨hnode, .refl N r.store⟩

/-! ## All of reading -/

theorem ends_reading_admits :
    (∀ (node : Node) (r : Reader), (Part.node node).Admits Q N r → node.Operators Q →
      Ends node.read r (fun node' r' => node'.Operators Q ∧ r.store.ChangesOnly N r'.store)
        fun _ r' => r.store.ChangesOnly N r'.store) ∧
    ∀ (o : Operator) (state : NodeState) (nodes : List Node) (r : Reader),
      (Part.group o state nodes).Admits Q N r → (∀ n ∈ nodes, n.Operators Q) →
      Ends (readNodes o state nodes) r
        (fun nodes' r' => (∀ n ∈ nodes', n.Operators Q) ∧ r.store.ChangesOnly N r'.store)
        fun _ r' => r.store.ChangesOnly N r'.store := by
  refine reading_induct (fun node r ih hpart hnode => ?_) fun o state nodes r ih hpart hnodes => ?_
  · rw [read_eq]
    have hturn := ends_turn_admits hmul (hpart node r .here) hnode
    refine ends_bind.2 (ends_iff.2 ⟨fun turn r' hrun => ?_, fun _ _ => hturn.of_error⟩)
    obtain ⟨hoperators, hstore⟩ := hturn.of_ok hrun
    have hnext := ih turn r' hrun
    cases turn with
    | done node' => exact ⟨hoperators, hstore⟩
    | again node' =>
      have hrest := hnext (fun _ _ h => hpart _ _ (.again hrun h)) hoperators
      exact hrest.mono (fun _ _ h => ⟨h.1, hstore.trans h.2⟩) fun _ _ h => hstore.trans h
    | nest node' =>
      have hrest := hnext (fun _ _ h => hpart _ _ (.nest hrun h)) (.blank _)
      refine ends_bind.2 (hrest.mono (fun _ _ h => ?_) fun _ _ h => hstore.trans h)
      exact ⟨hoperators.nesting h.1, hstore.trans h.2⟩
    | enter node' opener =>
      have hrest := hnext (fun _ _ h => hpart _ _ (.enter hrun h)) hoperators.children
      refine ends_bind.2 (hrest.mono (fun _ _ h => ?_) fun _ _ h => hstore.trans h)
      exact ⟨⟨hoperators.operator, h.1⟩, hstore.trans h.2⟩
  · rw [readNodes_eq]
    refine ends_bind.2 (ends_ahead.2 ?_)
    split
    · exact ends_bind.2 (ends_modify.2 ⟨.markUnclosed hnodes, .refl N r.store⟩)
    · rename_i hmore
      have hmore : skipBlanks r.rest ≠ [] := by simpa using hmore
      obtain ⟨ihNode, ihGroup⟩ := ih hmore
      have hfirst := ihNode (fun _ _ h => hpart _ _ (.first hmore h)) (.blank _)
      refine ends_bind.2 (ends_iff.2 ⟨fun node r' hread => ?_, fun _ _ => hfirst.of_error⟩)
      obtain ⟨hnode, hstore⟩ := hfirst.of_ok hread
      have hnodes' := List.forall_mem_append.2 ⟨hnodes, List.forall_mem_singleton.2 hnode⟩
      split
      · exact ⟨hnodes', hstore⟩
      · rename_i hopen
        have hrest := ihGroup node r' hread
          (fun _ _ h => hpart _ _ (.later hmore hread hopen h)) hnodes'
        exact hrest.mono (fun _ _ h => ⟨h.1, hstore.trans h.2⟩) fun _ _ h => hstore.trans h

theorem ends_readLineOn_admits :
    ∀ (node : Node) (r : Reader), (Part.line node).Admits Q N r → node.Operators Q →
      Ends node.readLineOn r
        (fun nodes r' => (∀ n ∈ nodes, n.Operators Q) ∧ r.store.ChangesOnly N r'.store)
        fun _ r' => r.store.ChangesOnly N r'.store := by
  refine line_induct fun node r ih hpart hnode => ?_
  rw [readLineOn_eq]
  have hfirst := (ends_reading_admits hmul).1 node r (fun _ _ h => hpart _ _ (.begun h)) hnode
  refine ends_bind.2 (ends_iff.2 ⟨fun node' r' hread => ?_, fun _ _ => hfirst.of_error⟩)
  obtain ⟨hnode', hstore⟩ := hfirst.of_ok hread
  have hnodes : ∀ n ∈ if node'.isEmpty then [] else [node'], n.Operators Q := by
    split
    · exact List.forall_mem_nil _
    · exact List.forall_mem_singleton.2 hnode'
  refine ends_bind.2 (ends_ahead.2 ?_)
  split
  · exact ⟨hnodes, hstore⟩
  · rename_i hmore
    have hmore : skipBlanks r'.rest ≠ [] := by simpa using hmore
    have hrest := ih node' r' hread hmore (fun _ _ h => hpart _ _ (.next hread hmore h)) (.blank _)
    refine ends_bind.2 (hrest.mono (fun _ _ h => ?_) fun _ _ h => hstore.trans h)
    exact ⟨List.forall_mem_append.2 ⟨hnodes, h.1⟩, hstore.trans h.2⟩

/-- What reading a text leaves: operators that have been taken, and a store that has
    changed at names that have been assigned to. -/
theorem readText_admits {seed : Option Quantity} (h : (Part.line (begunWith seed)).Admits Q N r) :
    r.store.ChangesOnly N (readText seed r).2.store ∧
      ∀ nodes, (readText seed r).1 = .ok nodes → ∀ n ∈ nodes, n.Operators Q := by
  have hbegun : (begunWith seed).Operators Q := by
    cases seed with
    | none => exact .blank _
    | some q => exact (Operators.blank .initial).of_eq rfl rfl
  have hends := ends_readLineOn_admits hmul _ r h hbegun
  rw [readText, build_eq]
  cases hread : (begunWith seed).readLineOn r with
  | ok nodes r' =>
    obtain ⟨hnodes, hstore⟩ := hends.of_ok hread
    exact ⟨hstore, fun _ h => Except.ok.inj h ▸ hnodes⟩
  | error snag r' =>
    have hstore : r.store.ChangesOnly N r'.store := hends.of_error hread
    cases snag <;> exact ⟨hstore, fun _ h => by cases h⟩

end

/-- The store changes at the names that are assigned to. -/
theorem changesOnly_readText (seed : Option Quantity) (r : Reader) :
    r.store.ChangesOnly (fun name => AssignsInline name (.line (begunWith seed)) r)
      (readText seed r).2.store :=
  (readText_admits (Q := fun _ => True) trivial fun node there h =>
    ⟨fun _ _ _ => trivial, fun target rest hahead hread =>
      ⟨node, there, target, rest, h, hahead, hread, rfl⟩⟩).1

/-! ## Texts without assignments -/

/-- In reading the part, no value is assigned and no operator is taken that assigns one. -/
def Part.AssignsNothing (part : Part) (r : Reader) : Prop :=
  part.Admits (fun o => o.arity ≠ .assign) (fun _ => False) r

/-- If a text assigns nothing, reading it leaves the store as it is, and no operator in
    the tree assigns. -/
theorem readText_of_assignsNothing {seed : Option Quantity}
    (h : (Part.line (begunWith seed)).AssignsNothing r) :
    (readText seed r).2.store = r.store ∧
      ∀ nodes, (readText seed r).1 = .ok nodes →
        ∀ n ∈ nodes, n.Operators fun o => o.arity ≠ .assign := by
  obtain ⟨hstore, hnodes⟩ := readText_admits (by decide) h
  exact ⟨hstore.eq, hnodes⟩

/-- Reading goes on in what is left of the text. -/
theorem ComesTo.suffix {goal : Node} {there : Reader} {part : Part}
    (h : ComesTo goal there part r) : there.rest <:+ r.rest := by
  induction h with
  | here => exact List.suffix_refl _
  | again hturn _ ih | nest hturn _ ih | enter hturn _ ih =>
    exact ih.trans ((steady_suffix.keeps_turn _ _).of_ok hturn)
  | first _ _ ih => exact ih.trans (suffix_skipBlanks _)
  | later _ hread _ _ ih =>
    exact (ih.trans (((steady_suffix.keeps_reading _).1 _ _).of_ok hread)).trans
      (suffix_skipBlanks _)
  | begun _ ih => exact ih
  | next hread _ _ ih =>
    exact (ih.trans (suffix_skipBlanks _)).trans
      (((steady_suffix.keeps_reading _).1 _ _).of_ok hread)

/-- A value is assigned behind `=` only. -/
theorem mem_of_readName {store : Store} {text rest : List Char} {target : Quantity}
    (h : Quantity.readName store text = .ok (.assignment target) rest) : '=' ∈ text := by
  have hends : Ends (Quantity.readName store) text
      (fun mentioned _ => ∀ q, mentioned = .assignment q → '=' ∈ text) fun _ _ => True := by
    refine ends_bind.2 (ends_modify.2 (ends_bind.2 (ends_get.2 ?_)))
    dsimp only
    split
    · trivial
    refine ends_bind.2 (ends_modify.2 (ends_bind.2 ?_))
    refine (Quantity.moves_readNameMeasure _ _).mono (fun q rest hrest => ?_) fun _ _ _ => trivial
    refine ends_bind.2 (ends_get.2 ?_)
    split
    · rename_i hstarts
      have hmem : '=' ∈ rest := by
        rw [Quantity.startsAssignment.eq_def] at hstarts
        split at hstarts
        · exact List.mem_cons_self
        · cases hstarts
      have hsuffix : rest <:+ text :=
        (hrest.trans (List.drop_suffix _ _)).trans (suffix_skipBlanks text)
      exact (ends_true _ _).mono (fun _ _ _ _ _ => hsuffix.mem hmem) fun _ _ h => h
    · intro q hq
      cases hq
  exact hends.of_ok h target rfl

/-- So a text without `=` assigns nothing. -/
theorem assignsNothing_of_notMem {part : Part} (h : '=' ∉ r.rest) : part.AssignsNothing r := by
  have hspelling : ∀ o ∈ Operator.table, '=' ∉ o.spelling.toList → o.arity ≠ .assign := by
    decide +kernel
  intro node there hthere
  have hrest : '=' ∉ skipBlanks there.rest := fun hmem =>
    h (((suffix_skipBlanks _).trans hthere.suffix).mem hmem)
  refine ⟨fun o hahead _ => ?_, fun target rest _ hread => hrest (mem_of_readName hread)⟩
  have hbegins := operator_of_ahead hahead
  have hstarts := startsWith_iff.1 (startsWith_of_longestMatch hbegins)
  exact hspelling o (mem_of_longestMatch hbegins) fun hmem => hrest (hstarts.subset hmem)

end Node

end Reckoner
