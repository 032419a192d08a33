import Reckoner.Proofs.Reading.Visits

/-!
# The places of a reading, in order

A reading is a sequence of places, at each of which a node is read on with by one step.
They are listed here as reading goes on (`Node.places`), by running all that is in between;
they are just the places that it comes to (`Node.mem_places`), so that none is missing. What
a reading does in what order is what is done at its places, as are the inline assignments it
makes (`Node.assignedNames`).
-/

namespace Reckoner

open Text Build

namespace Node

/-! ## Places in order -/

/-- The places behind a step that reading goes on after, given those of reading on with a
    node and those of a group. -/
def Turn.places (on : Node → Reader → List (Node × Reader))
    (within : NodeState → Reader → List (Node × Reader)) : Turn → Reader → List (Node × Reader)
  | done _ => fun _ => []
  | again node => on node
  | nest _ => on (blank .initial)
  | enter _ _ => within .initial

variable [DigitLimit]

mutual

/-- The places that reading on with a node comes to, in at most the given number of
    steps. -/
def placesOn : (steps : Nat) → Node → Reader → List (Node × Reader)
  | 0, _, _ => []
  | steps + 1, node, r =>
    (node, r) ::
      match node.turn r with
      | .ok turn r => turn.places (placesOn steps) (placesWithin steps) r
      | .error .. => []

/-- The places that reading the nodes of a group comes to, in at most the given number of
    steps. -/
def placesWithin : (steps : Nat) → NodeState → Reader → List (Node × Reader)
  | 0, _, _ => []
  | steps + 1, state, r =>
    let r := { r with rest := skipBlanks r.rest }
    if r.rest.isEmpty then []
    else
      placesOn steps (blank state) r ++
        match readOn steps (blank state) r with
        | .ok node r => if node.state = .closeParen then [] else placesWithin steps node.state r
        | .error .. => []

end

/-- The places that reading the nodes of a line comes to, of at most the given number. -/
def placesAlong : (nodes : Nat) → Node → Reader → List (Node × Reader)
  | 0, _, _ => []
  | nodes + 1, node, r =>
    placesOn (enoughSteps r.rest) node r ++
      match readOn (enoughSteps r.rest) node r with
      | .ok node r =>
        let r := { r with rest := skipBlanks r.rest }
        if r.rest.isEmpty then [] else placesAlong nodes (blank node.state) r
      | .error .. => []

/-- The places that building a tree comes to, in order: the nodes that are read on with, and
    what there is to read there. -/
def places (seed : Option Quantity) (r : Reader) : List (Node × Reader) :=
  placesAlong (r.rest.length + 1) (begunWith seed) r

/-! ## Assignments in order -/

/-- The name that is given a value by a step from there. -/
def assigned? (node : Node) (r : Reader) : Option String :=
  match Node.ahead node.state (skipBlanks r.rest),
    Quantity.readName r.store (skipBlanks r.rest) with
  | .name, .ok (.assignment q) _ =>
    match r.store.assign q with
    | .ok _ => some q.name
    | .error _ => none
  | _, _ => none

/-- The names that are given values while a tree is built, in order. -/
def assignedNames (seed : Option Quantity) (r : Reader) : List String :=
  (places seed r).filterMap fun place => place.1.assigned? place.2

/-! ## No place is missing -/

variable {goal : Node} {there : Reader}

/-- What a node comes to is there, or behind its first step. -/
theorem comesTo_node {node : Node} {r : Reader} :
    ComesTo goal there (.node node) r ↔
      (goal = node ∧ there = r) ∨ ∃ turn r', node.turn r = .ok turn r' ∧
        match turn with
        | .done _ => False
        | .again node' => ComesTo goal there (.node node') r'
        | .nest _ => ComesTo goal there (.node (blank .initial)) r'
        | .enter node' opener => ComesTo goal there (.group opener .initial node'.children) r' := by
  constructor
  · intro h
    cases h with
    | here => exact .inl ⟨rfl, rfl⟩
    | again hturn hthere => exact .inr ⟨_, _, hturn, hthere⟩
    | nest hturn hthere => exact .inr ⟨_, _, hturn, hthere⟩
    | enter hturn hthere => exact .inr ⟨_, _, hturn, hthere⟩
  · rintro (⟨rfl, rfl⟩ | ⟨turn, r', hturn, hthere⟩)
    · exact .here
    · cases turn with
      | done node' => exact hthere.elim
      | again node' => exact .again hturn hthere
      | nest node' => exact .nest hturn hthere
      | enter node' opener => exact .enter hturn hthere

/-- What a group comes to is in its first node, or behind it. -/
theorem comesTo_group {opener : Operator} {state : NodeState} {nodes : List Node} {r : Reader}
    (hmore : skipBlanks r.rest ≠ []) :
    ComesTo goal there (.group opener state nodes) r ↔
      ComesTo goal there (.node (blank state)) { r with rest := skipBlanks r.rest } ∨
        ∃ node r', (blank state).read { r with rest := skipBlanks r.rest } = .ok node r' ∧
          node.state ≠ .closeParen ∧
          ComesTo goal there (.group opener node.state (nodes ++ [node])) r' := by
  constructor
  · intro h
    cases h with
    | first _ hthere => exact .inl hthere
    | later _ hread hopen hthere => exact .inr ⟨_, _, hread, hopen, hthere⟩
  · rintro (hthere | ⟨node, r', hread, hopen, hthere⟩)
    · exact .first hmore hthere
    · exact .later hmore hread hopen hthere

/-- What a line comes to is in its first node, or behind it. -/
theorem comesTo_line {node : Node} {r : Reader} :
    ComesTo goal there (.line node) r ↔
      ComesTo goal there (.node node) r ∨
        ∃ node' r', node.read r = .ok node' r' ∧ skipBlanks r'.rest ≠ [] ∧
          ComesTo goal there (.line (blank node'.state))
            { r' with rest := skipBlanks r'.rest } := by
  constructor
  · intro h
    cases h with
    | begun hthere => exact .inl hthere
    | next hread hmore hthere => exact .inr ⟨_, _, hread, hmore, hthere⟩
  · rintro (hthere | ⟨node', r', hread, hmore, hthere⟩)
    · exact .begun hthere
    · exact .next hread hmore hthere

theorem mem_placesOn {steps : Nat} :
    (∀ (node : Node) (r : Reader), node.mostSteps r.rest ≤ steps →
      ((goal, there) ∈ placesOn steps node r ↔ ComesTo goal there (.node node) r)) ∧
    ∀ (opener : Operator) (state : NodeState) (nodes : List Node) (r : Reader),
      3 * r.rest.length + 2 ≤ steps →
      ((goal, there) ∈ placesWithin steps state r ↔
        ComesTo goal there (.group opener state nodes) r) := by
  refine steps_induct
    (P := fun steps node r => (goal, there) ∈ placesOn steps node r ↔
      ComesTo goal there (.node node) r)
    (G := fun steps opener state nodes r => (goal, there) ∈ placesWithin steps state r ↔
      ComesTo goal there (.group opener state nodes) r)
    (fun steps node r _ hfollowed => ?_) (fun steps opener state nodes r hsteps hrest => ?_) steps
  · rw [placesOn, List.mem_cons, Prod.mk.injEq, comesTo_node]
    refine or_congr_right ?_
    cases hturn : node.turn r with
    | error f r' => simp
    | ok turn r' =>
      have hnext := hfollowed turn r' hturn
      cases turn with
      | done node' => simp [Turn.places]
      | again _ | nest _ | enter _ _ => simpa [Turn.places, Turn.FollowedBy] using hnext
  · rw [placesWithin]
    by_cases hmore : skipBlanks r.rest = []
    · simp only [hmore, List.isEmpty_nil, if_true]
      refine iff_of_false List.not_mem_nil fun h => ?_
      cases h with
      | first hne _ => exact hne hmore
      | later hne _ _ _ => exact hne hmore
    · obtain ⟨hfirst, hlater⟩ := hrest hmore
      simp only [List.isEmpty_iff, hmore, if_false]
      rw [List.mem_append, comesTo_group hmore, hfirst,
        readOn_eq_read (mostSteps_blank_le hsteps)]
      refine or_congr_right ?_
      cases hread : (blank state).read { r with rest := skipBlanks r.rest } with
      | error f r' => simp
      | ok node r' =>
        have hbehind := hlater node r' hread
        by_cases hclosed : node.state = .closeParen
        · simp [hclosed]
        · simpa [hclosed] using hbehind

theorem mem_placesAlong {nodes : Nat} {node : Node} {r : Reader} (h : r.rest.length < nodes) :
    (goal, there) ∈ placesAlong nodes node r ↔ ComesTo goal there (.line node) r := by
  induction nodes generalizing node r with
  | zero => omega
  | succ nodes ih =>
    rw [placesAlong, List.mem_append, comesTo_line,
      mem_placesOn.1 _ _ (node.mostSteps_le_enoughSteps r.rest)]
    refine or_congr_right ?_
    change (_ ∈ match node.read r with | .ok node r => _ | .error .. => _) ↔ _
    cases hread : node.read r with
    | error f r' => simp
    | ok node' r' =>
      by_cases hmore : skipBlanks r'.rest = []
      · simp [hmore]
      · have hlt := length_lt_of_read hread hmore
        have hrest := @ih (blank node'.state) { r' with rest := skipBlanks r'.rest }
          (by dsimp only; omega)
        simpa [hmore] using hrest

/-- The places are those that reading the line comes to. -/
theorem mem_places {seed : Option Quantity} {r : Reader} :
    (goal, there) ∈ places seed r ↔ ComesTo goal there (.line (begunWith seed)) r :=
  mem_placesAlong (Nat.lt_succ_self _)

/-- What is listed as assigned is assigned inline. -/
theorem assignsInline_of_mem {seed : Option Quantity} {r : Reader} {name : String}
    (h : name ∈ assignedNames seed r) : AssignsInline name (.line (begunWith seed)) r := by
  obtain ⟨⟨node, there⟩, hplace, hname⟩ := List.mem_filterMap.1 h
  rw [assigned?] at hname
  split at hname
  · rename_i target rest hahead hread
    split at hname
    · cases hname
      exact ⟨node, there, target, rest, mem_places.1 hplace, hahead, hread, rfl⟩
    · cases hname
  · cases hname

end Node

end Reckoner
