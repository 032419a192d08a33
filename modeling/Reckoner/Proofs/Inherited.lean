import Reckoner.Evaluation.Confirm
import Reckoner.Evaluation.Convert
import Reckoner.Name
import Reckoner.Proofs.Text.LongestMatch

/-!
# Inherited properties

Reading a line and evaluating it make quantities out of others in a few ways
only: a literal and a result are new ones, of a magnitude, a measure and a
format; a unit or a format is put in the place of another; a name is looked up;
and a name is given a value. A property that each of these passes on is
inherited (`Quantity.Inherited`): all quantities have it that come about in a
session. What is to be known of the store for that, assignments have to pass on
as well. Where no names are looked up, it is enough that the other ways pass it on
(`Quantity.Passed`).

Measures are never made up. They are those of units, or those of the quantities
there are (`Quantity.Lends`).
-/

namespace Reckoner

/-- The measure is that of bare numbers or that of a unit. -/
def Measure.IsKnown (m : Measure) : Prop :=
  m = .plain ∨ ∃ s ∈ Spelling.table, s.measure = m

namespace Measure

theorem isKnown_plain : plain.IsKnown := .inl rfl

theorem isKnown_degrees : degrees.IsKnown :=
  .inr ⟨⟨"D", degrees, "degrees"⟩, by decide, rfl⟩

theorem isKnown_radians : radians.IsKnown :=
  .inr ⟨⟨"R", radians, "radians"⟩, by decide, rfl⟩

theorem Spelling.isKnown_of_begins? {s : Spelling} {text : List Char} (h : begins? text = some s) :
    s.measure.IsKnown :=
  .inr ⟨s, Text.mem_of_longestMatch h, rfl⟩

end Measure

namespace Quantity

variable {P : Quantity → Prop} {m n : Measure}

/-! ## Measures -/

/-- The measure is known, or a quantity with the property has it. -/
def Lends (P : Quantity → Prop) (m : Measure) : Prop :=
  m.IsKnown ∨ ∃ q, P q ∧ q.measure = m

theorem lends_measure {q : Quantity} (h : P q) : Lends P q.measure :=
  .inr ⟨q, h, rfl⟩

theorem Lends.orElse (hm : Lends P m) (hn : Lends P n) : Lends P (m.orElse n) := by
  rw [Measure.orElse]
  split
  · exact hn
  · exact hm

theorem Lends.result (hm : Lends P m) (hn : Lends P n) (op : Arithmetic) :
    Lends P (op.measure m n) := by
  have hsame : Lends P (if m.sameAs n then m else .plain) := by
    split
    · exact hm
    · exact .inl Measure.isKnown_plain
  cases op with
  | add | sub | mod | max | min => exact hsame
  | mul | div | pow | root => exact hm.orElse hn

/-! ## Properties -/

/-- The name with a value. -/
def valued (q : Quantity) (magnitude : Magnitude) (measure : Measure) (format literal : String) :
    Quantity :=
  { q with
    magnitude := magnitude
    measure := measure
    format := format
    literal := literal
    isVariable := true
    isUnset := false
    isConstant := false }

theorem resolved_eq_valued (q : Quantity) (magnitude : Magnitude) :
    q.resolved magnitude = q.valued magnitude q.measure q.format q.literal := rfl

theorem answered_eq_valued (q literal : Quantity) :
    q.answered literal = q.valued literal.magnitude (literal.measure.orElse q.measure)
      literal.format q.literal := rfl

theorem updated_eq_valued (q stored : Quantity) :
    q.updated stored = q.valued stored.magnitude (q.measure.orElse stored.measure)
      stored.format q.literal := rfl

/-- Literals and results have the property, provided that their measure is none that
    is made up. -/
def Makes (P : Quantity → Prop) : Prop :=
  ∀ (magnitude : Magnitude) (measure : Measure) (format literal : String), Lends P measure →
    P { magnitude := magnitude, measure := measure, format := format, literal := literal }

namespace Makes

variable (hP : Makes P) {q q' : Quantity}
include hP

theorem combine {op : Arithmetic} {left right : Quantity} (hleft : P left) (hright : P right)
    (h : op.combine left right = some q) : P q := by
  obtain ⟨magnitude, -, rfl⟩ := Option.map_eq_some_iff.1 h
  exact hP _ _ _ _ ((lends_measure hleft).result (lends_measure hright) op)

theorem of {f : Elementary} (hq : P q) (h : f.of q = some q') : P q' := by
  obtain ⟨magnitude, -, rfl⟩ := Option.map_eq_some_iff.1 h
  exact hP _ _ _ _ (lends_measure hq)

theorem realIn (h : Lends P m) (format : String) (q : Quantity) : P (q.realIn m format) :=
  hP _ _ _ _ h

end Makes

/-- The property passes on to all quantities that are made of those that have it, other
    than by looking up names, as far as `I` holds of the store, which assignments pass
    on. -/
structure Passed (I : Store → Prop) (P : Quantity → Prop) : Prop where
  makes : Makes P
  measured : ∀ {q : Quantity} {measure : Measure}, P q → Lends P measure →
    P { q with measure := measure }
  formatted : ∀ {q : Quantity} (format : String), P q → P { q with format := format }
  /-- The measures in the store. -/
  lent : ∀ {store : Store} {name : String} {e : Entry}, I store → store.find? name = some e →
    Lends P e.quantity.measure
  valued : ∀ {q : Quantity} {measure : Measure} (magnitude : Magnitude) (format literal : String),
    P q → q.isVariable = true → Lends P measure → P (q.valued magnitude measure format literal)
  assigned : ∀ {store store' : Store} {q : Quantity} {measure : Measure} (magnitude : Magnitude)
    (format literal : String), I store → P q → Lends P measure →
      store.assign (q.valued magnitude measure format literal) = .ok store' → I store'

/-- The property passes on to all quantities that are made of those that have it, and
    to the names that are looked up. -/
structure Inherited (I : Store → Prop) (P : Quantity → Prop) : Prop extends Passed I P where
  /-- A name as it stands in the store. -/
  named : ∀ {store : Store} {name : String}, I store → name ≠ "" → P (named store name)

/-- What assignments keep of a store is kept, whatever the values are. -/
theorem inherited_of_assign {I : Store → Prop}
    (h : ∀ {s s' : Store} {q : Quantity}, I s → s.assign q = .ok s' → I s') :
    Inherited I fun _ => True where
  makes _ _ _ _ _ := trivial
  measured _ _ := trivial
  formatted _ _ := trivial
  named _ _ := trivial
  lent {_ _ e} _ _ := lends_measure (q := e.quantity) trivial
  valued _ _ _ _ _ _ := trivial
  assigned _ _ _ hI _ _ hassign := h hI hassign

end Quantity

end Reckoner
