import Reckoner.Proofs.Phrase.Reading
import Reckoner.Proofs.Reading.Apart
import Reckoner.Proofs.Reading.Induction

/-!
# Reading in front of a conversion

A double colon and the word for a unit, put behind any text, are read as a
conversion into that unit, whatever the text is: no part of reading takes more
than the text in front of them (`Scan.Spares`), until the double colon is taken
as an operator. There is one exception. A display format goes on to the next
blank, so that one at the end of the text takes all that is behind it
(`Text.EndsInFormat`).

The conversion may be nested, in a group that the text leaves open or below an
operator that waits for its operand. If not, it is that of the last node of the
line (`Node.ends_readLineOn_converting`).
-/

namespace Reckoner

open Text Build

namespace Text

/-- A display format goes on to the end of the text. -/
def EndsInFormat (text : List Char) : Prop :=
  ∃ format, ':' :: '%' :: format <:+ text ∧ ∀ c ∈ format, isBlank c = false

variable {text left unit behind : List Char}

theorem EndsInFormat.of_suffix (h : EndsInFormat left) (hleft : left <:+ text) :
    EndsInFormat text := by
  obtain ⟨format, hformat, hblank⟩ := h
  exact ⟨format, hformat.trans hleft, hblank⟩

theorem skipBlanks_append (text rest : List Char) :
    skipBlanks (text ++ ':' :: rest) = skipBlanks text ++ ':' :: rest :=
  (span_append fun c hc => by rw [← Option.some.inj hc]; rfl).2

end Text

/-! ## Scanners -/

namespace Scan

variable {α β : Type} {x : Scan α} {f : α → Scan β} {text behind : List Char}

/-- The scanner leaves all that is behind the text, and an end of the text in front
    of it, unless it fails. -/
def Spares (x : Scan α) (text behind : List Char) : Prop :=
  Ends x (text ++ behind) (fun _ rest => ∃ left, left <:+ text ∧ rest = left ++ behind)
    fun _ _ => True

theorem Spares.bind (h : Spares x text behind)
    (hf : ∀ a left, left <:+ text → Spares (f a) left behind) : Spares (x >>= f) text behind := by
  refine ends_bind.2 (h.mono (fun a rest hrest => ?_) fun _ _ h => h)
  obtain ⟨left, hleft, rfl⟩ := hrest
  refine (hf a left hleft).mono (fun b rest hrest => ?_) fun _ _ h => h
  obtain ⟨left', hleft', rfl⟩ := hrest
  exact ⟨left', hleft'.trans hleft, rfl⟩

/-- It is enough to know what the scanner does on an end of the text. -/
theorem Spares.of_eq {y : Scan α} {left : List Char} (h : Spares y left behind)
    (hleft : left <:+ text) (hxy : x (text ++ behind) = y (left ++ behind)) :
    Spares x text behind := by
  rw [Spares, Ends, hxy]
  refine Ends.mono h (fun a rest hrest => ?_) fun _ _ h => h
  obtain ⟨left', hleft', hrest⟩ := hrest
  exact ⟨left', hleft'.trans hleft, hrest⟩

end Scan

namespace Quantity

open Scan

variable {text behind : List Char}

/-! ## Units and formats -/

section

variable (unit : List Char)

variable [DigitLimit]

end

end Quantity

/-! ## Steps of building -/

/-- The text that converts into the unit. -/
def Measure.Spelling.converting (s : Measure.Spelling) : List Char :=
  ':' :: ':' :: s.spelling.toList

namespace Build

variable {α : Type} {s : Measure.Spelling} {text left : List Char} {r r' : Reader}

/-- The conversion is left, and an end of the text in front of it. -/
def StopsBefore (s : Measure.Spelling) (text : List Char) (r : Reader) : Prop :=
  ∃ left, left <:+ text ∧ r.rest = left ++ s.converting

theorem StopsBefore.of_suffix (h : StopsBefore s left r) (hleft : left <:+ text) :
    StopsBefore s text r := by
  obtain ⟨left', hleft', hrest⟩ := h
  exact ⟨left', hleft'.trans hleft, hrest⟩

variable [DigitLimit]

end Build

/-! ## Nodes -/

namespace Operator

end Operator

namespace Node

variable {s : Measure.Spelling} {text left : List Char} {node : Node} {r r' : Reader}

/-- The node ends in a conversion into the unit. -/
def Converts (s : Measure.Spelling) (node : Node) : Prop :=
  node.operator = some .conversion ∧ ∃ params, node.params = params ++ [s.target]

theorem isEmpty_eq_false (h : node.Converts s ∨ node.children ≠ []) : node.isEmpty = false := by
  rcases h with ⟨h, -⟩ | h <;> simp [isEmpty, h]

/-- The last node ends in a conversion into the unit, or nests others. -/
def LastConverts (s : Measure.Spelling) (nodes : List Node) : Prop :=
  ∃ last, nodes.getLast? = some last ∧ (last.Converts s ∨ last.children ≠ [])

theorem LastConverts.append {nodes : List Node} (h : LastConverts s nodes) (before : List Node) :
    LastConverts s (before ++ nodes) := by
  obtain ⟨last, hlast, h⟩ := h
  exact ⟨last, by simp [List.getLast?_append, hlast], h⟩

variable [DigitLimit]

variable (hs : s ∈ Measure.Spelling.table)
include hs

end Node

end Reckoner
