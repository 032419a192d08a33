/-!
# Measures

A measure says what a number counts: a key, unique to the unit of measurement
(`"cm"`), the text shown behind the number, and the dimension the unit belongs
to. The plain measure, of the dimension *number*, is that of a bare number.

Measures of different dimensions are never converted into one another; two
measures are the same when dimension and key agree, however they are shown.
-/

namespace Reckoner

/-- A physical quantity that units measure. -/
inductive Dimension
  | number
  | angle
  | temperature
  | length
  | frequency
  | wavelength
  | speed
  | mass
  | force
  | energy
  | pressure
  | voltage
  | current
  | resistance
  | capacitance
  | inductance
  | time
deriving DecidableEq

/-- The name of a dimension in reports and listings. -/
def Dimension.name : Dimension → String
  | number => "number"
  | angle => "angle"
  | temperature => "temperature"
  | length => "length"
  | frequency => "frequency"
  | wavelength => "wavelength"
  | speed => "speed"
  | mass => "mass"
  | force => "force"
  | energy => "energy"
  | pressure => "pressure"
  | voltage => "voltage"
  | current => "current"
  | resistance => "resistance"
  | capacitance => "capacitance"
  | inductance => "inductance"
  | time => "time"

/-- What a number counts. -/
structure Measure where
  /-- The dimension of the unit. -/
  dimension : Dimension
  /-- The key of the unit. -/
  key : String
  /-- The text shown behind a number of this measure. -/
  display : String
deriving DecidableEq

namespace Measure

/-- The measure of a bare number. -/
def plain : Measure := ⟨.number, "", ""⟩

/-- Degrees, the angles of everyday use. -/
def degrees : Measure := ⟨.angle, "deg", "deg"⟩

/-- Radians, the angles of analysis. -/
def radians : Measure := ⟨.angle, "rad", "rad"⟩

/-- No unit at all. -/
def isPlain (m : Measure) : Bool :=
  m.dimension == .number

/-- The unit is the radian. -/
def isRadians (m : Measure) : Bool :=
  m.dimension == .angle && m.key == "rad"

/-- The same unit, whatever the two displays. -/
def sameAs (m n : Measure) : Bool :=
  m.dimension == n.dimension && m.key == n.key

theorem sameAs_refl (m : Measure) : m.sameAs m = true := by
  simp [sameAs]

/-- `m` where it is a unit, and otherwise `n`. -/
def orElse (m n : Measure) : Measure :=
  if m.isPlain then n else m

end Measure

end Reckoner
