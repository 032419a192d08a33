import Reckoner.Proofs.Phrase.Reading
import Reckoner.Proofs.Phrase.Running

/-!
# What a phrase means

Reading the text of a phrase and running the tree it is read into come to the
value of the phrase (`Phrase.runLine_readText`): the value is pushed, or the run
fails as computing the value does. As the value is that of a phrase taken from
left to right, so is the meaning of a line. A phrase with a whole number of too
many digits has none: it is not read.
-/

namespace Reckoner

open Eval

section

variable [DigitLimit]

/-- Running the nodes pushes the value of the phrase, if it has one, and fails as
    the value does otherwise. -/
def Phrase.RunsTo (settings : Settings) (depth : Int) (e : Phrase) (nodes : List Node)
    (m : Machine) : Prop :=
  match e.eval settings (settings.formulaAt depth) m with
  | .ok v m' =>
    runLine settings (settings.formulaAt depth) nodes m = .ok ⟨⟩ { m' with stack := v :: m.stack }
  | .error why m' =>
    ∃ stack, runLine settings (settings.formulaAt depth) nodes m =
      .error why { m' with stack := stack }

theorem Phrase.runsTo_of_sameResult {settings : Settings} {depth : Int} {e : Phrase}
    {nodes : List Node} {m : Machine}
    (h : SameResult (runLine settings (settings.formulaAt depth) nodes m)
      ((do push [← e.eval settings (settings.formulaAt depth)]) m)) :
    e.RunsTo settings depth nodes m := by
  have hstack := (e.blind_eval settings
    (blind_evalFormula settings (settings.levelsBelow depth))).ends_stack m
  rw [RunsTo]
  cases heval : e.eval settings (settings.formulaAt depth) m with
  | ok v m' =>
    have hpush : push [v] m' = .ok ⟨⟩ { m' with stack := v :: m.stack } := by
      rw [← hstack.of_ok heval]
      rfl
    rw [bind_of_ok heval, hpush] at h
    exact h.eq_ok
  | error why m' =>
    rw [bind_of_error heval] at h
    exact h.eq_error

/-- A phrase is read in full, with nothing to say, and running it comes to its
    value; only where the default format does not show every real number, a value
    that has no text may interrupt the run. A whole number with too many digits
    interrupts reading, and then there is nothing to run. -/
theorem Phrase.runLine_readText (settings : Settings) (depth : Int) (e : Phrase) {m : Machine}
    (hstore : m.store.HoldsConstants) (messages : List Message) :
    match e.fault? with
    | none =>
      ∃ nodes, Node.readText none ⟨e.text, m.store, messages⟩ =
          (.ok nodes, ⟨[], m.store, messages⟩) ∧
        (e.RunsTo settings depth nodes m ∨
          Unshown settings (runLine settings (settings.formulaAt depth) nodes m))
    | some f =>
      f.ExceedsLimit ∧ ∃ rest, Node.readText none ⟨e.text, m.store, messages⟩ =
        (.error (.fault f), ⟨rest, m.store, messages⟩) := by
  cases hfault : e.fault? with
  | some f => exact ⟨e.exceedsLimit_of_fault? hfault, readText_overlong hstore hfault messages⟩
  | none =>
    refine ⟨e.nodes, readText_text hstore hfault messages, ?_⟩
    have hformula : ∀ q text, Blind (settings.formulaAt depth q text) :=
      blind_evalFormula settings (settings.levelsBelow depth)
    -- Running the tree is alike to pushing the value, and showing the stack after a
    -- failure is, to not showing it.
    have hline : Alike settings (runLine settings (settings.formulaAt depth) e.nodes)
        (do push [← e.eval settings (settings.formulaAt depth)]) :=
      (alike_onFailure_showStack _).trans (e.alike_nodes hformula)
    exact (hline m).imp_left Phrase.runsTo_of_sameResult

end

/-- One from two, times three. -/
def oneFromTwoTimesThree : Phrase :=
  let digit (c : Char) (h : c.isDigit = true) : Term := .atom (.literal
    ⟨⟨false, [c], none⟩, none, nofun, fun d hd => List.mem_singleton.1 hd ▸ h, nofun, nofun⟩)
  let minus : BinaryOperator :=
    ⟨⟨"-", "sub", .arithmetic .sub, "subtraction"⟩, .sub, by decide, rfl⟩
  let times : BinaryOperator := ⟨.multiplication, .mul, by decide, rfl⟩
  .apply (.apply (.term (digit '2' rfl)) minus (digit '1' rfl)) times (digit '3' rfl)

/-- Multiplication does not come first. -/
theorem Phrase.runLine_oneFromTwoTimesThree :
    ∃ nodes, Node.readText none ⟨"2 - 1 * 3".toList, Store.initial, []⟩ =
        (.ok nodes, ⟨[], Store.initial, []⟩) ∧
      runLine .default (Settings.default.formulaAt 0) nodes ⟨[], Store.initial, [], none, []⟩ =
        .ok ⟨⟩ ⟨[{ magnitude := .whole 3 }], Store.initial, [], none, []⟩ := by
  have hline := Phrase.runLine_readText .default 0 oneFromTwoTimesThree
    (m := ⟨[], Store.initial, [], none, []⟩) Store.holdsConstants_initial []
  have hfault : oneFromTwoTimesThree.fault? = none := by decide +kernel
  rw [hfault] at hline
  obtain ⟨nodes, hread, hrun⟩ := hline
  exact ⟨nodes, hread, hrun.resolve_right fun h => h.1 Settings.showsReals_default⟩

/-- A number with more digits than there usually may be is not read. -/
theorem Phrase.readText_ones :
    ∃ rest, Node.readText none ⟨List.replicate 4301 '1', Store.initial, []⟩ =
      (.error (.fault (.tooManyDigits 4300 4301)), ⟨rest, Store.initial, []⟩) := by
  let e : Phrase := .term (.atom (.literal (.ones 4300)))
  have hfault : e.fault? = some (.tooManyDigits 4300 4301) := Literal.fault?_ones_usual
  rw [← Literal.text_ones 4300]
  exact readText_overlong (e := e) Store.holdsConstants_initial hfault []

end Reckoner
