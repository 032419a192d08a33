import Reckoner.Measure.Spelling

/-!
# Conversion rules

A rule converts one unit into another of the same dimension. It does so by a
formula, a fragment of the calculator's own language that continues a line
already holding the value: the formula of degrees Celsius in Fahrenheit is
`*9/5+32.`, and 25 of the former are `25*9/5+32.` of the latter.

The lengths have a rule for every ordered pair, from the number of millimeters
in each (`lengths`); the pairs used most have a rule of their own before those.
-/

namespace Reckoner.Measure

/-- A conversion between two units of one dimension. -/
structure Rule where
  /-- The dimension of both units. -/
  dimension : Dimension
  /-- The key of the unit that is converted. -/
  source : String
  /-- The key of the unit it is converted into. -/
  target : String
  /-- What a line holding the value continues with. -/
  formula : String
deriving DecidableEq

namespace Rule

/-- The rules between units of one dimension, each given by the two keys and
    the formula. -/
def between (dimension : Dimension) (rows : List (String × String × String)) : List Rule :=
  rows.map fun (source, target, formula) => ⟨dimension, source, target, formula⟩

/-- The lengths convertible into one another, with their millimeters. -/
def millimeters : List (String × String) := [
  ("mm", "1."),
  ("cm", "10."),
  ("m", "1000."),
  ("km", "1000000."),
  ("in", "25.4"),
  ("ft", "304.8"),
  ("yds", "914.4"),
  ("mi", "1609344.")
]

/-- From one length to another by way of millimeters; a step from or to
    millimeters themselves is left out. -/
def lengthFormula (source target : String × String) : String :=
  if source.1 == "mm" then "/" ++ target.2
  else if target.1 == "mm" then "*" ++ source.2
  else "*" ++ source.2 ++ "/" ++ target.2

/-- The rules between all lengths that have millimeters. -/
def lengths : List Rule :=
  between .length <| millimeters.flatMap fun source =>
    (millimeters.filter fun target => target.1 != source.1).map fun target =>
      (source.1, target.1, lengthFormula source target)

/-- All rules; of two between the same units the first counts. -/
def table : List Rule :=
  between .angle [
    ("deg", "rad", "*pi/180"),
    ("rad", "deg", "*180/pi")] ++
  between .temperature [
    ("C", "F", "*9/5+32."),
    ("F", "C", "- 32.*5/9"),
    ("C", "K", "+273.15"),
    ("K", "C", "- 273.15"),
    ("F", "K", "- 32.*5/9+273.15"),
    ("K", "F", "- 273.15*9/5+32.")] ++
  between .length [
    ("in", "cm", "*2.54"),
    ("cm", "in", "/2.54"),
    ("m", "cm", "*100."),
    ("cm", "m", "/100."),
    ("km", "cm", "*100000."),
    ("cm", "km", "/100000."),
    ("m", "in", "*100./2.54"),
    ("in", "ft", "/12."),
    ("ft", "in", "*12."),
    ("ft", "yds", "/3."),
    ("yds", "ft", "*3."),
    ("mi", "ft", "*5280."),
    ("ft", "mi", "/5280."),
    ("mi", "km", "*1.609344"),
    ("km", "mi", "/1.609344")] ++
  lengths ++
  between .speed [
    ("mph", "kph", "*1.609344"),
    ("kph", "mph", "/1.609344")] ++
  between .frequency [
    ("Hz", "kHz", "/1000."),
    ("Hz", "MHz", "/1000000."),
    ("Hz", "GHz", "/1000000000."),
    ("kHz", "Hz", "*1000."),
    ("kHz", "MHz", "/1000."),
    ("kHz", "GHz", "/1000000."),
    ("MHz", "Hz", "*1000000."),
    ("MHz", "kHz", "*1000."),
    ("MHz", "GHz", "/1000."),
    ("GHz", "Hz", "*1000000000."),
    ("GHz", "kHz", "*1000000."),
    ("GHz", "MHz", "*1000.")] ++
  between .mass [
    ("g", "mg", "*1000."),
    ("g", "kg", "/1000."),
    ("mg", "g", "/1000."),
    ("mg", "kg", "/1000000."),
    ("kg", "g", "*1000."),
    ("kg", "mg", "*1000000.")] ++
  between .pressure [
    ("atm", "kPa", "*101.325"),
    ("kPa", "atm", "/101.325"),
    ("psi", "kPa", "*6.894757293"),
    ("kPa", "psi", "/6.894757293"),
    ("atm", "psi", "*101.325/6.894757293"),
    ("psi", "atm", "*6.894757293/101.325")] ++
  between .voltage [
    ("kV", "V", "*1000."),
    ("V", "kV", "/1000."),
    ("V", "mV", "*1000."),
    ("mV", "V", "/1000."),
    ("mV", "uV", "*1000."),
    ("uV", "mV", "/1000.")] ++
  between .current [
    ("A", "mA", "*1000."),
    ("mA", "A", "/1000."),
    ("mA", "uA", "*1000."),
    ("uA", "mA", "/1000."),
    ("A", "uA", "*1000000."),
    ("uA", "A", "/1000000.")] ++
  between .resistance [
    ("Ohm", "kOhm", "/1000."),
    ("kOhm", "Ohm", "*1000."),
    ("kOhm", "MOhm", "/1000."),
    ("MOhm", "kOhm", "*1000."),
    ("Ohm", "MOhm", "/1000000."),
    ("MOhm", "Ohm", "*1000000.")] ++
  between .time [
    ("ms", "sec", "/1000."),
    ("sec", "ms", "*1000."),
    ("sec", "min", "/60."),
    ("min", "sec", "*60."),
    ("min", "hrs", "/60."),
    ("hrs", "min", "*60."),
    ("sec", "hrs", "/3600."),
    ("hrs", "sec", "*3600."),
    ("hrs", "days", "/24."),
    ("days", "hrs", "*24.")]

end Rule

/-- The rule of `rules` from `source` into `target`. A unit of another
    dimension has none; a bare number could only have one from the empty
    key. -/
def rule? (rules : List Rule) (source target : Measure) : Option Rule :=
  if !source.isPlain && source.dimension != target.dimension then none
  else rules.find? fun r =>
    r.dimension == target.dimension && r.source == source.key && r.target == target.key

theorem mem_of_rule? {rules : List Rule} {source target : Measure} {r : Rule}
    (h : rule? rules source target = some r) : r ∈ rules := by
  rw [rule?] at h
  split at h
  · cases h
  · exact List.mem_of_find?_eq_some h

end Reckoner.Measure
