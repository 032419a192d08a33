import Reckoner.Proofs.Reading.Visits
import Reckoner.Proofs.Reading.Apart
import Reckoner.Proofs.Reading.Grammar
import Reckoner.Proofs.Phrase.Reading
import Reckoner.Evaluation.Run

/-!
# Continuing a number

A formula continues a number that is not in its text. Reading it is reading the text
in which the number stands in front of it, with a blank between
(`Node.readText_behind`): the seed is the node that a literal at the head of a line
comes to, and all else is the same text. So the formula gives what typing it behind
the number does.
-/

namespace Reckoner

open Text Build

namespace Node

variable {store : Store} {messages : List Message} {number : List Char} {q : Quantity}

variable [DigitLimit]

/-- A literal at the head of a line comes to the node that the seed is. -/
theorem gives_turn_decimal (h : IsDecimal number) (text : List Char) :
    GivesUnless store messages (Numeral.read number).1.fault? (blank .initial).turn
      (number ++ ' ' :: text) (.again (seeded (.ofNumeral (Numeral.read number).1)))
      (' ' :: text) := by
  have hread := h.readLiteral_append (atBlank_cons text)
  have hahead : ahead .initial (number ++ ' ' :: text) = .number :=
    ahead_number (.inl rfl) ((startsNumber_apart (atBlank_cons text).apart).trans h.startsNumber_eq)
  cases hfault : (Numeral.read number).1.fault? with
  | none =>
    rw [hfault] at hread
    exact gives_turn_quantity (h.atToken.append _) hahead hread
  | some f =>
    rw [hfault] at hread
    exact gives_turn_overlong (h.atToken.append _) hahead hread

/-- Reading a text as the continuation of a number is reading it behind the number. -/
theorem readText_seed (h : IsDecimal number) (hfits : (Numeral.read number).1.Fits)
    (text : List Char) :
    readText (some (.ofNumeral (Numeral.read number).1)) ⟨text, store, messages⟩ =
      readText none ⟨number ++ ' ' :: text, store, messages⟩ := by
  have hturn : GivesUnless store messages _ _ _ _ _ := gives_turn_decimal h text
  rw [hfits] at hturn
  obtain ⟨rest, hturn, hrest⟩ := hturn
  have hrest : skipBlanks rest = skipBlanks text := hrest.trans (skipBlanks_cons text)
  have hline : (blank .initial).readLineOn ⟨number ++ ' ' :: text, store, messages⟩ =
      (seeded (.ofNumeral (Numeral.read number).1)).readLineOn ⟨text, store, messages⟩ := by
    rw [readLineOn_again hturn, skipsBlanks_readLineOn, skipsBlanks_readLineOn _ ⟨text, _, _⟩]
    exact congrArg (fun rest => (seeded _).readLineOn ⟨rest, store, messages⟩) hrest
  have hbuild : build (some (.ofNumeral (Numeral.read number).1)) ⟨text, store, messages⟩ =
      build none ⟨number ++ ' ' :: text, store, messages⟩ := by
    rw [build_eq, build_eq]
    exact hline.symm
  rw [readText, readText, hbuild]

/-- A number with too many digits is a fault there. -/
theorem readText_overlong (h : IsDecimal number) {f : Fault}
    (hf : (Numeral.read number).1.fault? = some f) (text : List Char) :
    ∃ rest, readText none ⟨number ++ ' ' :: text, store, messages⟩ =
      (.error (.fault f), ⟨rest, store, messages⟩) := by
  have hturn : GivesUnless store messages _ _ _ _ _ := gives_turn_decimal h text
  rw [hf] at hturn
  obtain ⟨rest, hturn⟩ := hturn
  exact ⟨rest, readText_of_turn_fault hturn⟩

end Node

/-! ## Formulas -/

namespace Eval

variable [DigitLimit]

/-- Read as the continuation of the seed, or as a line if there is none, and run on an
    empty stack, the text leaves the value on top. -/
def LeavesOnTop (run : List Node → Eval PUnit) (seed : Option Quantity) (text : List Char)
    (m : Machine) (v : Quantity) : Prop :=
  ∃ nodes r after below, Node.readText seed ⟨text, m.store, []⟩ = (.ok nodes, r) ∧
    run nodes { m with stack := [], store := r.store, messages := r.messages } = .ok ⟨⟩ after ∧
      after.stack = v :: below

/-- A pass gives the value that it leaves on top of its stack. -/
theorem evalPass_eq_ok_iff {run : List Node → Eval PUnit} {seed v : Quantity} {formula : String}
    {m : Machine} :
    (∃ m', evalPass run seed formula m = .ok v m') ↔
      LeavesOnTop run (some seed) formula.toList m v := by
  rw [evalPass, LeavesOnTop]
  generalize Node.readText (some seed) ⟨formula.toList, m.store, []⟩ = read
  obtain ⟨nodes, r⟩ := read
  constructor
  · rintro ⟨m', h⟩
    rcases nodes with (_ | f) | nodes
    · cases h
    · cases h
    · dsimp only at h
      split at h
      · rename_i after hrun
        split at h
        · rename_i top below hstack
          cases h
          exact ⟨nodes, r, after, below, rfl, hrun, hstack⟩
        · cases h
      · cases h
      · cases h
  · rintro ⟨nodes, r, after, below, hread, hrun, hstack⟩
    cases hread
    dsimp only
    rw [hrun]
    dsimp only
    rw [hstack]
    exact ⟨_, rfl⟩

end Eval

namespace Node

/-- A formula that continues a decimal literal is read as it is behind the literal and a
    blank, whether it can be read or not: into the same nodes, with the same messages and
    the same assignments. So it gives the value that typing it there leaves on top. There is
    no literal to continue where that has too many digits, and typing it is a fault. -/
theorem readText_behind [DigitLimit] (h : IsDecimal number) :
    match Quantity.readLiteral number with
    | .ok q rest =>
      rest = [] ∧
      (∀ text store messages,
        readText (some q) ⟨text, store, messages⟩ =
          readText none ⟨number ++ ' ' :: text, store, messages⟩) ∧
      ∀ settings levels (formula : String) m v,
        (∃ m', Eval.evalFormula settings (levels + 1) q formula m = .ok v m') ↔
          Eval.LeavesOnTop (Eval.runLine settings (Eval.evalFormula settings levels)) none
            (number ++ ' ' :: formula.toList) m v
    | .error (.fault f) rest =>
      rest = [] ∧ f.ExceedsLimit ∧
      ∀ text store messages, ∃ rest,
        readText none ⟨number ++ ' ' :: text, store, messages⟩ =
          (.error (.fault f), ⟨rest, store, messages⟩)
    | .error (.failure _) _ => False := by
  have hread := h.readLiteral_append (.inl rfl : AtBlank [])
  rw [List.append_nil] at hread
  cases hfault : (Numeral.read number).1.fault? with
  | some f =>
    rw [hread, hfault]
    exact ⟨rfl, Numeral.exceedsLimit_of_fault? hfault, fun text _ _ =>
      readText_overlong h hfault text⟩
  | none =>
    rw [hread, hfault]
    refine ⟨rfl, fun text _ _ => readText_seed h hfault text, ?_⟩
    intro settings levels formula m v
    refine Eval.evalPass_eq_ok_iff.trans ?_
    rw [Eval.LeavesOnTop, Eval.LeavesOnTop, readText_seed h hfault]

/-- Minus thirty-two and a half, continued by an assignment, a sign and a group that is
    left open. -/
theorem readText_behind_minus :
    IsDecimal "-32.5".toList ∧
      readText (some (.ofNumeral ⟨true, ['3', '2'], some ['5']⟩))
          ⟨"y=3 -y*(2".toList, .initial, []⟩ =
        readText none ⟨"-32.5 y=3 -y*(2".toList, .initial, []⟩ := by
  have hnumber : IsDecimal "-32.5".toList :=
    .digits (n := ⟨true, ['3', '2'], some ['5']⟩) (by decide)
      (List.all_iff_forall_prop.1 (by decide)) (List.all_iff_forall_prop.1 (by decide))
  refine ⟨hnumber, ?_⟩
  exact (readText_behind hnumber).2.1 _ _ _

end Node

end Reckoner
