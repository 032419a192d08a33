import Reckoner.Proofs.Reading.Steady

/-!
# Reading comes to an end

Reading a node goes on in steps (`Node.turn`). A step passes a character or more
before the next one, unless the text has ended; only in front of an operator
that has to be nested it passes blanks alone, and then the node nested begins
with that operator, which it takes itself (`ends_turn`). So the text gets
shorter from one step to the next, from one node of a group or line to the next
(`ends_readOn_past`), and reading ends by itself: the numbers of steps and nodes
that bound it are never reached (`readOn_eq_of_le`, `readLine_eq_of_le`).
-/

namespace Reckoner

open Text Build

theorem Operator.length_pos {o : Operator} (h : o ∈ table) : 0 < o.spelling.length := by
  revert o
  decide

namespace Node

/-! ## How many steps there are -/

/-- How many steps it takes to get past the blanks, at least: an operator may
    have to be nested first. -/
def leastSteps (node : Node) : Nat :=
  if node.takesOperator then 1 else 2

theorem takesOperator_blank (state : NodeState) : (blank state).takesOperator = true := rfl

/-- How many steps a node can take on a text: three for every character, and a
    node that nests another one takes one more. -/
def mostSteps (node : Node) (text : List Char) : Nat :=
  3 * text.length + node.leastSteps

theorem leastSteps_le (node : Node) : node.leastSteps ≤ 2 := by
  rw [leastSteps]
  split <;> omega

theorem leastSteps_pos (node : Node) : 0 < node.leastSteps := by
  rw [leastSteps]
  split <;> omega

theorem mostSteps_pos (node : Node) (text : List Char) : 0 < node.mostSteps text :=
  Nat.lt_of_lt_of_le node.leastSteps_pos (Nat.le_add_left _ _)

/-- A node of a group can be read in one step less than the group. -/
theorem mostSteps_blank_le {state : NodeState} {text : List Char} {steps : Nat}
    (h : 3 * text.length + 2 ≤ steps + 1) :
    (blank state).mostSteps (skipBlanks text) ≤ steps := by
  have hle := length_skipBlanks_le text
  have hleast : (blank state).leastSteps = 1 := rfl
  rw [mostSteps]
  omega

/-! ## One step -/

/-- The step passes a character or more before reading goes on. -/
def Turn.moves : Turn → Bool
  | nest _ => false
  | _ => true

/-- What a step from `node` comes to, by what it does to the reader. -/
inductive Step (node : Node) (r r' : Reader) : Turn → Prop
  /-- The text has ended. -/
  | ended : skipBlanks r.rest = [] → r'.rest = [] → Step node r r' (.done node)
  | moved {turn : Turn} : turn.moves = true → Past r'.rest r.rest → Step node r r' turn
  /-- An operator is left to a nested node. -/
  | nested : node.takesOperator = false → skipBlanks r.rest ≠ [] → r'.rest = skipBlanks r.rest →
    Step node r r' (.nest node)

theorem moves_of (p : Node × Bool) : (Turn.of p).moves = true := by
  obtain ⟨node, complete⟩ := p
  cases complete <;> rfl

/-- A number is read in front of a term, and where an operand has to follow. -/
theorem ahead_number {state : NodeState} {text : List Char}
    (hstate : state = .initial ∨ state = .binary) (hnumber : startsNumber text = true) :
    ahead state text = .number := by
  have hconvert : state ≠ .convert := by rcases hstate with h | h <;> rw [h] <;> decide
  rw [ahead, if_neg hconvert, if_pos (by simpa [hnumber] using hstate)]

theorem operator_of_ahead {state : NodeState} {text : List Char} {o : Operator}
    (h : ahead state text = .operator o) : Operator.begins? text = some o := by
  rw [ahead] at h
  split at h
  · cases h
  · split at h
    · cases h
    · cases hb : Operator.begins? text with
      | some o' => rw [hb] at h; cases h; rfl
      | none => rw [hb] at h; dsimp only at h; split at h <;> cases h

/-- Reading leaves an end of the text. -/
theorem steady_suffix : Steady fun r r' => r'.rest <:+ r.rest where
  refl _ := List.suffix_refl _
  trans h h' := h'.trans h
  pass _ _ h := h
  assign _ _ _ _ := List.suffix_refl _
  warn _ _ _ _ := List.suffix_refl _

/-- An operator is taken off the text with its whole spelling. -/
theorem takes_operator {o : Operator} {text : List Char} (h : Operator.begins? text = some o) :
    (Scan.drop o.spelling.length).Takes text := by
  have hpos := Operator.length_pos (mem_of_longestMatch h)
  refine Scan.takes_drop hpos (ne_nil_of_startsWith ?_ (startsWith_of_longestMatch h))
  rw [← List.length_pos_iff, String.length_toList]
  exact hpos

/-- Reading off the text, in front of which blanks have been passed, moves. -/
theorem ends_scan_past {α : Type} {s : Scan α} {r : Reader} (hs : s.Takes (skipBlanks r.rest)) :
    Ends (scan s) { r with rest := skipBlanks r.rest } (fun _ r' => Past r'.rest r.rest)
      fun _ _ => True :=
  ends_scan.2 (hs.mono (fun _ _ h => h.suffix_trans (suffix_skipBlanks _)) fun _ _ _ => trivial)

variable [DigitLimit]

theorem ends_mention_past (r : Reader) :
    Ends mention { r with rest := skipBlanks r.rest } (fun _ r' => Past r'.rest r.rest)
      fun _ _ => True := by
  refine ends_bind.2 (ends_get.2 (ends_bind.2 ?_))
  refine (ends_scan_past (Quantity.takes_readName r.store _)).mono (fun m r' h => ?_)
    fun _ _ _ => trivial
  cases m with
  | operand q => exact h
  | assignment q =>
    dsimp only
    split
    · exact h
    · trivial

/-- Where the text has ended, a node is complete as it is. -/
theorem turn_ended (node : Node) {r : Reader} (h : skipBlanks r.rest = []) :
    node.turn r = .ok (.done node) { r with rest := [] } := by
  refine (bind_of_ok (ahead_eq r)).trans ?_
  rw [h]
  rfl

/-- Where there is more than blanks, a node is read on with by what is ahead of it. -/
theorem turn_eq (node : Node) {r : Reader} (h : skipBlanks r.rest ≠ []) :
    node.turn r = node.proceed (Node.ahead node.state (skipBlanks r.rest))
      { r with rest := skipBlanks r.rest } := by
  refine (bind_of_ok (ahead_eq r)).trans ?_
  rw [if_neg (by simpa using h)]

theorem ends_turn (node : Node) (r : Reader) :
    Ends node.turn r (fun turn r' => Step node r r' turn) fun _ _ => True := by
  refine ends_bind.2 (ends_ahead.2 ?_)
  by_cases hend : skipBlanks r.rest = []
  · rw [hend]
    exact .ended hend rfl
  · rw [if_neg (by simpa using hend)]
    have hmoved : ∀ p : Node × Bool, ∀ r' : Reader, Past r'.rest r.rest → Step node r r' (.of p) :=
      fun p r' h => .moved (moves_of p) h
    cases h : ahead node.state (skipBlanks r.rest) with
    | target =>
      exact ends_bind.2 ((ends_scan_past (Quantity.takes_readTarget _)).mono
        (fun q r' h => hmoved _ r' h) fun _ _ _ => trivial)
    | number =>
      exact ends_bind.2 ((ends_scan_past (Quantity.takes_readLiteral _)).mono
        (fun q r' h => hmoved _ r' h) fun _ _ _ => trivial)
    | name =>
      refine ends_bind.2 ((ends_mention_past r).mono (fun q r' h => ?_) fun _ _ _ => trivial)
      cases q with
      | none => exact .moved rfl h
      | some q => exact hmoved _ r' h
    | operator o =>
      rw [proceed]
      cases htakes : node.takesOperator with
      | false => exact .nested htakes hend rfl
      | true =>
        -- The operator is taken off the text, and then perhaps blanks.
        have hdrop := takes_operator (operator_of_ahead h)
        refine ends_bind.2 ((ends_scan_past hdrop).mono (fun _ r' h => ?_) fun _ _ _ => trivial)
        refine ends_bind.2 (ends_ahead.2 ?_)
        have hpast : Past (skipBlanks r'.rest) r.rest := h.of_suffix (suffix_skipBlanks _)
        split
        · exact .moved rfl hpast
        · exact hmoved _ _ hpast

/-! ## A node -/

/-- Reading on with a node passes more than blanks, if there is more. -/
theorem ends_readOn_past {steps : Nat} {node : Node} {r : Reader}
    (hsteps : node.leastSteps ≤ steps) (htext : skipBlanks r.rest ≠ []) :
    Ends (readOn steps node) r (fun _ r' => Past r'.rest r.rest) fun _ _ => True := by
  induction steps generalizing node r with
  | zero => unfold leastSteps at hsteps; split at hsteps <;> omega
  | succ steps ih =>
    obtain ⟨hnode, hgroup⟩ := steady_suffix.keeps_reading steps
    refine ends_bind.2 ((ends_turn node r).mono (fun turn r' hstep => ?_) fun _ _ _ => trivial)
    cases hstep with
    | ended hend => exact absurd hend htext
    | moved _ hpast =>
      exact (steady_suffix.keeps_followed hnode (fun o => hgroup o .initial) turn r').mono
        (fun _ _ h => hpast.of_suffix h) fun _ _ _ => trivial
    | nested htakes hne hrest =>
      -- The nested node takes the operator itself, in its first step.
      have hleast : (blank .initial).leastSteps ≤ steps := by
        simp only [leastSteps, htakes, takesOperator_blank, if_true] at hsteps ⊢
        simpa using hsteps
      have hchild := ih hleast (r := r') (by rwa [hrest, skipBlanks_skipBlanks])
      exact ends_bind.2 (hchild.mono
        (fun _ _ h => h.suffix_trans (hrest ▸ suffix_skipBlanks _)) fun _ _ _ => trivial)

/-- Reading on with a node passes something, or there was nothing but blanks. -/
theorem ends_readOn {steps : Nat} {node : Node} {r : Reader} (hsteps : node.leastSteps ≤ steps) :
    Ends (readOn steps node) r (fun _ r' => Past r'.rest r.rest ∨ r'.rest = [])
      fun _ _ => True := by
  by_cases htext : skipBlanks r.rest = []
  · obtain ⟨steps, rfl⟩ : ∃ n, steps = n + 1 :=
      ⟨steps - 1, by unfold leastSteps at hsteps; split at hsteps <;> omega⟩
    have hturn := turn_ended node htext
    exact ends_bind.2 (ends_iff.2 ⟨fun turn r' h => by
      obtain ⟨rfl, rfl⟩ : Turn.done node = turn ∧ { r with rest := [] } = r' := by
        simpa [hturn] using h
      exact .inr rfl, fun f r' h => by simp [hturn] at h⟩)
  · exact (ends_readOn_past hsteps htext).mono (fun _ _ h => .inl h) fun _ _ h => h

/-! ## Steps enough -/

/-- Enough steps for a node, and for a group, are enough: others make no
    difference. -/
theorem reading_eq_of_le (steps : Nat) :
    (∀ {node : Node} {r : Reader} {steps' : Nat}, node.mostSteps r.rest ≤ steps →
      node.mostSteps r.rest ≤ steps' → readOn steps node r = readOn steps' node r) ∧
    ∀ {o : Operator} {state : NodeState} {nodes : List Node} {r : Reader} {steps' : Nat},
      3 * r.rest.length + 2 ≤ steps → 3 * r.rest.length + 2 ≤ steps' →
      readGroup steps o state nodes r = readGroup steps' o state nodes r := by
  -- Nodes and groups are read in terms of each other, so both are taken at once;
  -- every step leaves a shorter text, or a node that nests no further.
  induction steps with
  | zero =>
    exact ⟨fun {node _ _} h _ => absurd h (Nat.not_le.2 (node.mostSteps_pos _)),
      fun h _ => by omega⟩
  | succ steps ih =>
    obtain ⟨ihNode, ihGroup⟩ := ih
    constructor
    · intro node r steps' h h'
      rw [mostSteps] at h h'
      have hleast := node.leastSteps_pos
      obtain ⟨steps', rfl⟩ : ∃ n, steps' = n + 1 := ⟨steps' - 1, by omega⟩
      refine bind_eq_of_ok rfl fun turn r' hturn => ?_
      cases (ends_turn node r).of_ok hturn with
      | ended _ _ => rfl
      | moved hmoves hpast =>
        -- A character less leaves room for the two steps of whatever comes next.
        have hlt := hpast.2
        have hle := node.leastSteps_le
        cases turn with
        | done node => rfl
        | again node =>
          have := node.leastSteps_le
          exact ihNode (by unfold mostSteps; omega) (by unfold mostSteps; omega)
        | nest node => cases hmoves
        | enter node o => exact bind_eq_of_ok (ihGroup (by omega) (by omega)) fun _ _ _ => rfl
      | nested htakes _ hrest =>
        -- The text is as long as before, but the nested node does not nest again.
        have hle : r'.rest.length ≤ r.rest.length := hrest ▸ length_skipBlanks_le r.rest
        have hnode : node.leastSteps = 2 := by simp [leastSteps, htakes]
        have hblank : (blank .initial).leastSteps = 1 := rfl
        exact bind_eq_of_ok
          (ihNode (by unfold mostSteps; omega) (by unfold mostSteps; omega)) fun _ _ _ => rfl
    · intro o state nodes r steps' h h'
      obtain ⟨steps', rfl⟩ : ∃ n, steps' = n + 1 := ⟨steps' - 1, by omega⟩
      refine bind_eq_of_ok rfl fun text r' hahead => ?_
      obtain ⟨rfl, rfl⟩ := eq_of_ahead hahead
      have hle := length_skipBlanks_le r.rest
      have hleast : (blank state).leastSteps = 1 := rfl
      by_cases hend : skipBlanks r.rest = []
      · simp [hend]
      · simp only [List.isEmpty_iff, hend, if_false]
        refine bind_eq_of_ok (ihNode (mostSteps_blank_le h) (mostSteps_blank_le h'))
          fun node r' hnode => ?_
        have hpast := (ends_readOn_past (by omega) (by rwa [skipBlanks_skipBlanks])).of_ok hnode
        have hlt := hpast.2
        dsimp only at hlt
        split
        · rfl
        · exact ihGroup (by omega) (by omega)

end Node

end Reckoner
