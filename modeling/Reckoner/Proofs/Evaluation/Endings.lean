import Reckoner.Evaluation.Run
import Reckoner.Proofs.Ends

/-!
# How steps of evaluation end

Evaluation has steps that are composed of others in ways of their own: the stack
is put back if a step fails (`Eval.ends_restoring`), another step follows always
(`Eval.ends_andAlways`) or on failing (`Eval.ends_onFailure`), and a formula is
a run on a stack of its own (`Eval.ends_evalPass`). How such a step ends is said
by how its parts do.
-/

namespace Reckoner

namespace Eval

theorem ends_restoring {α : Type} {x : Eval α} {stack : List Quantity} {m : Machine}
    {Q : α → Machine → Prop} {E : Halt → Machine → Prop} :
    Ends (restoring stack x) m Q E ↔
      Ends x m Q fun e m' => match e with
        | .failed => E .failed { m' with stack := stack }
        | .fault f => E (.fault f) m' := by
  simp only [Ends, restoring]
  cases x m with
  | ok a m' => rfl
  | error e m' => cases e <;> rfl

section

variable {x y : Eval PUnit} {m : Machine} {Q : PUnit → Machine → Prop} {E : Halt → Machine → Prop}

theorem ends_andAlways :
    Ends (andAlways x y) m Q E ↔
      Ends x m (fun _ m' => Ends y m' Q E) fun e m' => match e with
        | .failed => Ends y m' (fun _ => E .failed) E
        | .fault f => E (.fault f) m' := by
  simp only [Ends, andAlways]
  cases x m with
  | ok a m' => rfl
  | error e m' =>
    cases e with
    | failed =>
      dsimp only
      cases y m' <;> rfl
    | fault f => rfl

theorem ends_onFailure :
    Ends (onFailure x y) m Q E ↔
      Ends x m Q fun e m' => match e with
        | .failed => Ends y m' (fun _ => E .failed) E
        | .fault f => E (.fault f) m' := by
  simp only [Ends, onFailure]
  cases x m with
  | ok a m' => rfl
  | error e m' =>
    cases e with
    | failed =>
      dsimp only
      cases y m' <;> rfl
    | fault f => rfl

end

/-! ## Formulas -/

/-- How a formula ends, by how its text is read and how the nodes are run: with the value
    that is on top then, if there is one, and otherwise in a failure or a fault. -/
theorem ends_evalPass [DigitLimit] {run : List Node → Eval PUnit} {seed : Quantity}
    {formula : String} {m : Machine} {Q : Quantity → Machine → Prop} {E : Halt → Machine → Prop}
    (hunread : ∀ r, Node.readText (some seed) ⟨formula.toList, m.store, []⟩ = (.error .failed, r) →
      E .failed { m with store := r.store, messages := m.messages ++ r.messages })
    (hfault : ∀ f r,
      Node.readText (some seed) ⟨formula.toList, m.store, []⟩ = (.error (.fault f), r) →
        E (.fault f) { m with store := r.store })
    (hrun : ∀ nodes r, Node.readText (some seed) ⟨formula.toList, m.store, []⟩ = (.ok nodes, r) →
      Ends (run nodes) { m with stack := [], store := r.store, messages := r.messages }
        (fun _ after =>
          (∀ top ∈ after.stack.head?,
            Q top { after with stack := m.stack, messages := m.messages }) ∧
          (after.stack = [] → E .failed { after with
            stack := m.stack
            messages := m.messages ++ after.messages ++
              [(Failure.formulaWithoutResult formula).message] }))
        fun e after => match e with
          | .failed => E .failed { after with
              stack := m.stack, messages := m.messages ++ after.messages }
          | .fault f => E (.fault f) { after with stack := m.stack, messages := m.messages }) :
    Ends (evalPass run seed formula) m Q E := by
  rw [Ends, evalPass]
  rcases hread : Node.readText (some seed) ⟨formula.toList, m.store, []⟩ with ⟨nodes, r⟩
  rcases nodes with (_ | f) | nodes
  · exact hunread r hread
  · exact hfault f r hread
  · have hpass := hrun nodes r hread
    dsimp only
    cases hx : run nodes { m with stack := [], store := r.store, messages := r.messages } with
    | ok _ after =>
      obtain ⟨htop, hempty⟩ := hpass.of_ok hx
      dsimp only
      cases hstack : after.stack with
      | cons top below => exact htop top (by rw [hstack]; rfl)
      | nil => exact hempty hstack
    | error e after =>
      have hafter := hpass.of_error hx
      cases e with
      | failed => exact hafter
      | fault f => exact hafter

end Eval

end Reckoner
