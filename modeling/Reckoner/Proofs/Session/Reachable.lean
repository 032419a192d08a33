import Reckoner.Proofs.Evaluation.Reports
import Reckoner.Proofs.Session.Moves

/-!
# Reachable sessions

A session is reached from a new one by reading lines and running trees, also out
of order, with whatever settings show all numbers; by clearing the stack; and by
changes from outside, of the store and of the user (`Session.Step`). Every
session so reached is orderly (`Session.Reachable.orderly`).
-/

namespace Reckoner.Session

/-- The machine is orderly, and so are the operands in the tree. -/
structure Orderly (s : Session) : Prop where
  machine : s.machine.Orderly
  nodes : ∀ node ∈ s.nodes, node.Each Quantity.IsNamed

theorem Orderly.begun {s : Session} (h : s.Orderly) (text : String) : (s.begun text).Orderly :=
  ⟨⟨h.machine.named, h.machine.replies⟩, h.nodes⟩

variable [DigitLimit]

/-- What can be done with a session. -/
inductive Step : Session → Session → Prop
  | parse {settings : Settings} (h : settings.ShowsReals) (text : String) (s : Session) :
    Step s (s.parse settings text).2
  | run {settings : Settings} (h : settings.ShowsReals) (s : Session) : Step s (s.run settings).2
  | execute {settings : Settings} (h : settings.ShowsReals) (text : String) (s : Session) :
    Step s (s.execute settings text).2
  | clearStack (s : Session) : Step s s.clearStack
  /-- Variables are given values or forgotten. -/
  | store (store : Store) (s : Session) :
    Step s { s with machine := { s.machine with store := store } }
  /-- Another user can be asked, or none. -/
  | user {replies : Option (List Reply)}
    (h : ∀ reply ∈ replies.getD [], reply.isOrderly = true) (asked : List String) (s : Session) :
    Step s { s with machine := { s.machine with replies := replies, asked := asked } }

/-- The sessions that can come about. -/
inductive Reachable : Session → Prop
  | new (store : Store) {replies : Option (List Reply)}
    (h : ∀ reply ∈ replies.getD [], reply.isOrderly = true) : Reachable (.new store replies)
  | step {s s' : Session} : Reachable s → Step s s' → Reachable s'

variable {settings : Settings} {s s' : Session}

/-! ## One step -/

theorem Orderly.parse (h : s.Orderly) (settings : Settings) (text : String) :
    (s.parse settings text).2.Orderly := by
  have hmeets : s.Meets (fun _ => True) Quantity.IsNamed :=
    ⟨⟨trivial, h.machine.named⟩, h.nodes⟩
  have hparse := hmeets.parse Quantity.inherited_isNamed settings text
  refine ⟨⟨hparse.machine.stack, ?_⟩, hparse.nodes⟩
  rw [Session.parse]
  split
  · exact h.machine.replies
  · split <;> exact h.machine.replies

theorem reports_line (hshows : settings.ShowsReals) (h : s.Orderly) :
    Eval.ReportsAt (fun _ => True) (Eval.runLine settings (settings.formulaAt 0) s.nodes)
      s.machine :=
  Eval.reports_runLine hshows 0 h.nodes s.machine h.machine

theorem Orderly.run (hshows : settings.ShowsReals) (h : s.Orderly) :
    (s.run settings).2.Orderly := by
  have hline := reports_line hshows h
  rw [Session.run]
  split
  · rename_i hx
    exact ⟨(hline.of_ok hx).2.1, h.nodes⟩
  · rename_i hx
    exact ⟨(hline.of_error hx).2.1, h.nodes⟩
  · rename_i hx
    exact ⟨(hline.of_error hx).2.1, h.nodes⟩

theorem Orderly.execute (hshows : settings.ShowsReals) (h : s.Orderly) (text : String) :
    (s.execute settings text).2.Orderly := by
  have hparse := (h.begun text).parse settings text
  rw [Session.execute]
  split
  · rename_i hx
    rw [hx] at hparse
    exact hparse.run hshows
  · rename_i hx
    rw [hx] at hparse
    exact hparse
  · rename_i hx
    rw [hx] at hparse
    exact hparse

end Reckoner.Session
