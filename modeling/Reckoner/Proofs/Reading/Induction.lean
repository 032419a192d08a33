import Reckoner.Proofs.Reading.Whole

/-!
# Induction along reading

Nodes and groups are read in terms of each other, and in front of an operator a
node nests another one without passing a character. What is to be shown of all
of reading is therefore shown along it (`Node.reading_induct`): of a node, given
that it holds of whatever follows its first step, and of a group, given that it
holds of its next node and of the rest of it. What also depends on a number of
steps, as long as these are enough, is shown of one step more
(`Node.steps_induct`).
-/

namespace Reckoner

open Text Build

namespace Node

/-- What follows the step has the property that is shown of nodes or that of
    groups. -/
def Turn.FollowedBy (P : Node → Reader → Prop)
    (G : Operator → NodeState → List Node → Reader → Prop) (r : Reader) : Turn → Prop
  | done _ => True
  | again node => P node r
  | nest _ => P (blank .initial) r
  | enter node o => G o .initial node.children r

variable {P : Node → Reader → Prop} {G : Operator → NodeState → List Node → Reader → Prop}

variable [DigitLimit]

/-- What follows a step of a node can be read in one step less. -/
theorem followedBy_of_steps {steps : Nat} {node : Node} {r r' : Reader} {turn : Turn}
    (hnode : ∀ (node : Node) (r : Reader), node.mostSteps r.rest ≤ steps → P node r)
    (hgroup : ∀ o state nodes (r : Reader), 3 * r.rest.length + 2 ≤ steps → G o state nodes r)
    (hsteps : node.mostSteps r.rest ≤ steps + 1) (hturn : node.turn r = .ok turn r') :
    turn.FollowedBy P G r' := by
  rw [mostSteps] at hsteps
  cases (ends_turn node r).of_ok hturn with
  | ended _ _ => trivial
  | moved hmoves hpast =>
    have hlt := hpast.2
    have hleast := node.leastSteps_pos
    cases turn with
    | done node => trivial
    | again node =>
      have hle := node.leastSteps_le
      exact hnode _ _ (by unfold mostSteps; omega)
    | nest node => cases hmoves
    | enter node o => exact hgroup _ _ _ _ (by omega)
  | nested htakes _ hrest =>
    -- The nested node does not nest again.
    have hle : r'.rest.length ≤ r.rest.length := hrest ▸ length_skipBlanks_le r.rest
    have hleast : node.leastSteps = 2 := by simp [leastSteps, htakes]
    have hblank : (blank .initial).leastSteps = 1 := rfl
    exact hnode _ _ (by rw [mostSteps, hblank]; omega)

/-- To show a property of reading nodes and one of reading groups in as many steps as they can
    take, it is enough to go one step, or one node, further in one step less. -/
theorem steps_induct {P : Nat → Node → Reader → Prop}
    {G : Nat → Operator → NodeState → List Node → Reader → Prop}
    (hnode : ∀ steps node (r : Reader), node.mostSteps r.rest ≤ steps + 1 →
      (∀ turn r', node.turn r = .ok turn r' → turn.FollowedBy (P steps) (G steps) r') →
      P (steps + 1) node r)
    (hgroup : ∀ steps o state nodes (r : Reader), 3 * r.rest.length + 2 ≤ steps + 1 →
      (skipBlanks r.rest ≠ [] →
        P steps (blank state) { r with rest := skipBlanks r.rest } ∧
          ∀ node r', (blank state).read { r with rest := skipBlanks r.rest } = .ok node r' →
            G steps o node.state (nodes ++ [node]) r') →
      G (steps + 1) o state nodes r)
    (steps : Nat) :
    (∀ (node : Node) (r : Reader), node.mostSteps r.rest ≤ steps → P steps node r) ∧
      ∀ o state nodes (r : Reader), 3 * r.rest.length + 2 ≤ steps → G steps o state nodes r := by
  induction steps with
  | zero =>
    exact ⟨fun node r h => absurd h (Nat.not_le.2 (node.mostSteps_pos r.rest)),
      fun _ _ _ _ h => absurd h (by omega)⟩
  | succ steps ih =>
    obtain ⟨ihNode, ihGroup⟩ := ih
    refine ⟨fun node r h => hnode steps node r h fun turn r' hturn =>
      followedBy_of_steps ihNode ihGroup h hturn, fun o state nodes r h => ?_⟩
    refine hgroup steps o state nodes r h fun hmore =>
      ⟨ihNode _ _ (mostSteps_blank_le h), fun node r' hread => ?_⟩
    have hlt := length_lt_of_read_blank hmore hread
    exact ihGroup _ _ _ _ (by omega)

/-- To show a property of reading nodes and one of reading groups, it is enough to
    go one step, or one node, further. -/
theorem reading_induct
    (hnode : ∀ node r, (∀ turn r', node.turn r = .ok turn r' → turn.FollowedBy P G r') → P node r)
    (hgroup : ∀ o state nodes (r : Reader),
      (skipBlanks r.rest ≠ [] →
        P (blank state) { r with rest := skipBlanks r.rest } ∧
          ∀ node r', (blank state).read { r with rest := skipBlanks r.rest } = .ok node r' →
            G o node.state (nodes ++ [node]) r') →
      G o state nodes r) :
    (∀ node r, P node r) ∧ ∀ o state nodes r, G o state nodes r := by
  have hsteps := steps_induct (P := fun _ => P) (G := fun _ => G)
    (fun _ node r _ => hnode node r) fun _ o state nodes r _ => hgroup o state nodes r
  exact ⟨fun node r => (hsteps _).1 node r (Nat.le_refl _),
    fun o state nodes r => (hsteps _).2 o state nodes r (Nat.le_refl _)⟩

/-- To show a property of reading lines, it is enough to go one node further. -/
theorem line_induct {P : Node → Reader → Prop}
    (h : ∀ (node : Node) (r : Reader), (∀ (node' : Node) (r' : Reader), node.read r = .ok node' r' →
      skipBlanks r'.rest ≠ [] → P (blank node'.state) { r' with rest := skipBlanks r'.rest }) →
      P node r) :
    ∀ node r, P node r := by
  intro node r
  generalize hlength : r.rest.length = length
  induction length using Nat.strongRecOn generalizing node r with
  | ind length ih =>
    exact h node r fun node' r' hread hmore =>
      ih _ (hlength ▸ length_lt_of_read hread hmore) _ _ rfl

end Node

end Reckoner
