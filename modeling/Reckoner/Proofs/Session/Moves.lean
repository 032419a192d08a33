import Reckoner.Proofs.Evaluation.Keeping
import Reckoner.Report

/-!
# Sessions move by move

From outside, lines are read, run and evaluated in a session, and its stack and
its variables are cleared (`Session.Move`), in any order, each time with the
settings of that time. What all values in a session have in common, on its stack
and in its tree, and what is known of its store (`Session.Meets`) is kept by any
number of moves if evaluation and reading keep it, whatever the lines are, what
the user replies and how they end (`Session.Meets.play`).
-/

namespace Reckoner.Session

/-- What can be done with a session. -/
inductive Move
  | parse (settings : Settings) (text : String)
  | run (settings : Settings)
  | execute (settings : Settings) (text : String)
  | executeStrictly (settings : Settings) (text : String)
  /-- Evaluates a line and reports. -/
  | report (settings : Settings) (text : String)
  | clearStack
  | clearVariables

section

variable [DigitLimit]

/-- The session after a move. -/
def Move.after (s : Session) : Move → Session
  | parse settings text => (s.parse settings text).2
  | run settings => (s.run settings).2
  | execute settings text => (s.execute settings text).2
  | executeStrictly settings text => (s.executeStrictly settings text).2
  | report settings text => (Report.evaluate settings text s).2
  | clearStack => s.clearStack
  | clearVariables => s.clearVariables

/-- The session after moves, the first one first. -/
def play (s : Session) (moves : List Move) : Session :=
  moves.foldl Move.after s

theorem executeStrictly_snd (settings : Settings) (text : String) (s : Session) :
    (s.executeStrictly settings text).2 = (s.execute settings text).2 := by
  rw [executeStrictly]
  obtain ⟨result, s'⟩ := s.execute settings text
  cases result with
  | error f => rfl
  | ok result =>
    dsimp only
    split <;> rfl

theorem evaluate_snd (settings : Settings) (text : String) (s : Session) :
    (Report.evaluate settings text s).2 = (s.execute settings text).2 := by
  rw [Report.evaluate]
  obtain ⟨result, s'⟩ := s.execute settings text
  cases result with
  | error f => rfl
  | ok result =>
    dsimp only
    split <;> rfl

end

/-- The store is as `I` has it, and all values have the property. -/
structure Meets (I : Store → Prop) (P : Quantity → Prop) (s : Session) : Prop where
  machine : s.machine.Meets I P
  nodes : ∀ node ∈ s.nodes, node.Each P

namespace Meets

variable {I : Store → Prop} {P : Quantity → Prop} {s : Session}

theorem new {store : Store} (h : I store) (replies : Option (List Reply)) :
    (Session.new store replies).Meets I P :=
  ⟨⟨h, List.forall_mem_nil _⟩, List.forall_mem_nil _⟩

theorem begun (h : s.Meets I P) (text : String) : (s.begun text).Meets I P :=
  ⟨⟨h.machine.store, h.machine.stack⟩, h.nodes⟩

theorem clearStack (h : s.Meets I P) : s.clearStack.Meets I P :=
  ⟨⟨h.machine.store, List.forall_mem_nil _⟩, h.nodes⟩

theorem clearVariables (h : s.Meets I P) (hclear : I s.machine.store.clear) :
    s.clearVariables.Meets I P :=
  ⟨⟨hclear, h.machine.stack⟩, h.nodes⟩

variable [DigitLimit]

section

variable (hP : Quantity.Inherited I P) (settings : Settings)
include hP

theorem parse (h : s.Meets I P) (text : String) : (s.parse settings text).2.Meets I P := by
  have hseed : ∀ q, (none : Option Quantity) = some q → P q := fun q hq =>
    absurd hq (Option.not_mem_none q)
  have hr : I (⟨text.toList, s.machine.store, s.machine.messages⟩ : Reader).store := h.machine.store
  have heach := @Node.each_of_readText _ _ hP _ _ hseed _ hr
  have hstore := Node.store_of_readText hP hseed hr
  rw [Session.parse]
  split
  · exact ⟨⟨h.machine.store, h.machine.stack⟩, List.forall_mem_nil _⟩
  · generalize Node.readText none ⟨text.toList, s.machine.store, s.machine.messages⟩ = read
      at heach hstore ⊢
    obtain ⟨nodes, r⟩ := read
    cases nodes with
    | ok nodes => exact ⟨⟨hstore, h.machine.stack⟩, heach rfl⟩
    | error e => cases e <;> exact ⟨⟨hstore, h.machine.stack⟩, List.forall_mem_nil _⟩

theorem run (h : s.Meets I P) : (s.run settings).2.Meets I P := by
  have hline := Eval.keeps_runLine hP settings 0 h.nodes s.machine h.machine
  rw [Session.run]
  split
  · rename_i hx
    exact ⟨(hline.of_ok hx).2, h.nodes⟩
  · rename_i hx
    exact ⟨hline.of_error hx, h.nodes⟩
  · rename_i hx
    exact ⟨hline.of_error hx, h.nodes⟩

theorem execute (h : s.Meets I P) (text : String) : (s.execute settings text).2.Meets I P := by
  have hparse := (h.begun text).parse hP settings text
  rw [Session.execute]
  split
  · rename_i hx
    rw [hx] at hparse
    exact hparse.run hP settings
  · rename_i hx
    rw [hx] at hparse
    exact hparse
  · rename_i hx
    rw [hx] at hparse
    exact hparse

end

/-! ## Moves -/

section

variable (hP : Quantity.Inherited I P)
include hP

/-- One move keeps what the session meets. -/
theorem after (h : s.Meets I P) (move : Move)
    (hclear : move = .clearVariables → ∀ store, I store → I store.clear) :
    (move.after s).Meets I P := by
  cases move with
  | parse settings text => exact h.parse hP settings text
  | run settings => exact h.run hP settings
  | execute settings text => exact h.execute hP settings text
  | executeStrictly settings text =>
    rw [Move.after, executeStrictly_snd]
    exact h.execute hP settings text
  | report settings text =>
    rw [Move.after, evaluate_snd]
    exact h.execute hP settings text
  | clearStack => exact h.clearStack
  | clearVariables => exact h.clearVariables (hclear rfl _ h.machine.store)

/-- Any number of moves does, if what is known of the store survives the clearing
    of variables, or none are cleared. -/
theorem play (h : s.Meets I P) (moves : List Move)
    (hclear : .clearVariables ∈ moves → ∀ store, I store → I store.clear) :
    (s.play moves).Meets I P := by
  induction moves generalizing s with
  | nil => exact h
  | cons move moves ih =>
    refine ih (h.after hP move fun hmove => hclear ?_) fun hmem =>
      hclear (List.mem_cons_of_mem _ hmem)
    exact hmove ▸ List.mem_cons_self

end

end Meets

end Reckoner.Session
