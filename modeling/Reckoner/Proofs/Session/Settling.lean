import Reckoner.Proofs.Evaluation.Settling
import Reckoner.Proofs.Session.Lines

/-!
# The values of a name along a line

A name that the store has no value for is asked for whenever an operator brings it up
to date, until there is an answer to keep. Along a line that assigns nothing it stands
for zero until then, and from then on for that one value (`Session.resolutions_absent`).
So a name can be used with two values in one line, if its question is first left blank
and then answered (`Session.blank_then_five`).
-/

namespace Reckoner.Session

section

variable [DigitLimit]

/-- What operators bring operands up to while a line is evaluated. -/
def resolutions (settings : Settings) (text : String) (s : Session) : List Resolution :=
  match (s.begun text).parse settings text with
  | (.ok true, s) =>
    Trace.each settings (settings.formulaAt 0)
      (Trace.evalFormula settings (settings.levelsBelow 0)) s.nodes s.machine
  | _ => []

variable {settings : Settings} {text : String} {name : String} {s : Session}

/-- The course of a name along a line that assigns nothing. -/
theorem course_of_assignsNothing (hrules : settings.rules = Measure.Rule.table)
    (hname : name ≠ "")
    (htext : (Node.Part.line (Node.begunWith none)).AssignsNothing
      ⟨text.toList, s.machine.store, []⟩) :
    Course (s.machine.store.numberOf name)
      (Resolution.valuesOf name (s.resolutions settings text))
      ((s.execute settings text).2.machine.store.numberOf name) := by
  have hformulas : ∀ r ∈ settings.rules, '=' ∉ r.formula.toList := by
    rw [hrules]
    decide +kernel
  by_cases hlength : settings.maxLength < text.length
  · rw [execute_of_tooLong hlength, resolutions, parse, if_pos hlength]
    exact .nil _
  obtain ⟨hstore, hnodes⟩ := Node.readText_of_assignsNothing htext
  have hparse := parse_eq (s := s) hlength
  generalize Node.readText none ⟨text.toList, s.machine.store, []⟩ = read at hstore hnodes hparse
  obtain ⟨nodes, r⟩ := read
  have hbegun : r.store = s.machine.store := hstore
  rw [execute, resolutions, hparse, ← hbegun]
  rcases nodes with (_ | f) | nodes
  · exact .nil _
  · exact .nil _
  · exact store_run (s := (s.begun text).reading nodes r)
      (I := fun store => Course (r.store.numberOf name) _ (store.numberOf name))
      (Eval.settles_runLine hname hformulas 0 (hnodes nodes rfl) _)

/-- Along a line that assigns nothing, a name that the store has no value for stands for
    zero at first, and then for one and the same value. It has that value in the store
    afterwards, and has none if it was zero all along. -/
theorem resolutions_absent (s : Session) (hrules : settings.rules = Measure.Rule.table)
    (hname : name ≠ "") (habsent : s.machine.store.find? name = none)
    (htext : (Node.Part.line (Node.begunWith none)).AssignsNothing
      ⟨text.toList, s.machine.store, []⟩) :
    ∃ (zeros rest : Nat) (v : Magnitude),
      Resolution.valuesOf name (s.resolutions settings text) =
          List.replicate zeros (.whole 0) ++ List.replicate rest v ∧
        (s.execute settings text).2.machine.store.numberOf name =
          if rest = 0 then none else some v := by
  have hcourse := course_of_assignsNothing hrules hname htext
  rw [Store.numberOf_eq_map, habsent] at hcourse
  exact hcourse.of_none

end

/-- A session with a user who leaves a question blank before answering one. -/
def hesitant : Session :=
  new .initial (some [.line "", .line "5"])

theorem x_of_hesitant :
    Settings.default.rules = Measure.Rule.table ∧ "x" ≠ "" ∧
      hesitant.machine.store.find? "x" = none ∧
      (Node.Part.line (Node.begunWith none)).AssignsNothing
        ⟨"x+x".toList, hesitant.machine.store, []⟩ ∧
      ∃ (zeros rest : Nat) (v : Magnitude),
        Resolution.valuesOf "x" (hesitant.resolutions .default "x+x") =
            List.replicate zeros (.whole 0) ++ List.replicate rest v ∧
          (hesitant.execute .default "x+x").2.machine.store.numberOf "x" =
            if rest = 0 then none else some v := by
  have habsent : hesitant.machine.store.find? "x" = none := by decide
  have htext : (Node.Part.line (Node.begunWith none)).AssignsNothing
      ⟨"x+x".toList, hesitant.machine.store, []⟩ :=
    Node.assignsNothing_of_notMem (by decide)
  exact ⟨rfl, by decide, habsent, htext,
    resolutions_absent hesitant rfl (by decide) habsent htext⟩

/-- The two operands of one sum have different values: a question left blank is put
    again. -/
theorem blank_then_five :
    (Node.Part.line (Node.begunWith none)).AssignsNothing
        ⟨"x+x".toList, hesitant.machine.store, []⟩ ∧
      hesitant.machine.store.find? "x" = none ∧
      Resolution.valuesOf "x" (hesitant.resolutions .default "x+x") = [.whole 0, .whole 5] :=
  ⟨Node.assignsNothing_of_notMem (by decide), by decide, by decide +kernel⟩

end Reckoner.Session
