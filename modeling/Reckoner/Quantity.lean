import Reckoner.Display
import Reckoner.Magnitude.Arithmetic
import Reckoner.Settings

/-!
# Quantities

A quantity is what the calculator computes with: a magnitude with a measure, a
display format and, where it stands for a name, that name. A quantity read from
a line keeps the numeral it was written as; computed ones have none.
-/

namespace Reckoner

/-- A number with a unit. -/
structure Quantity where
  magnitude : Magnitude
  measure : Measure := .plain
  /-- The display format; empty for the default one. -/
  format : String := ""
  /-- The numeral the quantity was read from. -/
  literal : String := ""
  /-- The name the quantity stands for. -/
  name : String := ""
  /-- The quantity stands for a name. -/
  isVariable : Bool := false
  /-- The name has no value yet. -/
  isUnset : Bool := false
  /-- The name is that of a constant. -/
  isConstant : Bool := false
deriving DecidableEq

namespace Quantity

/-- A name without a value. -/
def unset (name : String) : Quantity where
  magnitude := .real 0.0
  name := name
  isVariable := true
  isUnset := true

/-- The first format that is one. -/
def firstFormat (format other : String) : String :=
  if format == "" then other else format

/-- The text of a quantity: the magnitude in its format, and the unit. -/
def text (settings : Settings) (q : Quantity) : Except Format.Refusal String :=
  match q.magnitude with
  | .whole n =>
    let format := firstFormat q.format settings.wholeFormat
    .ok (Display.whole format n.toInt ++ q.measure.display)
  | .real x => (Display.real q.format settings.realFormat x).map (· ++ q.measure.display)

/-- Shown in hexadecimal, as far as the format's letters tell. -/
def showsBits (q : Quantity) : Bool :=
  q.format.toList.any fun c => c == 'x' || c == 'X'

end Quantity

/-! ## Computing -/

/-- The measure of a result: that of both operands for an operation that
    compares or adds; for one that scales, that of the first operand that has
    one. -/
def Arithmetic.measure (left right : Measure) : Arithmetic → Measure
  | add | sub | mod | max | min => if left.sameAs right then left else .plain
  | mul | div | pow | root => left.orElse right

/-- The operation on quantities. The result has the first format there is. -/
def Arithmetic.combine (op : Arithmetic) (left right : Quantity) : Option Quantity :=
  (op.apply left.magnitude right.magnitude).map fun m =>
    { magnitude := m
      measure := op.measure left.measure right.measure
      format := Quantity.firstFormat left.format right.format }

/-- The function of a quantity, which keeps measure and format. -/
def Elementary.of (f : Elementary) (q : Quantity) : Option Quantity :=
  (f.apply q.showsBits q.magnitude).map fun m =>
    { magnitude := m, measure := q.measure, format := q.format }

end Reckoner
