import Reckoner.Measure.Basic
import Reckoner.Text.LongestMatch

/-!
# Spellings of measures

The words that name a unit. Several of them can name the same one: `D` and
`deg` are both degrees. Spellings are case sensitive, and where a text begins
with several, the longest counts.
-/

namespace Reckoner.Measure

/-- A word naming a unit. -/
structure Spelling where
  /-- The word. -/
  spelling : String
  /-- The unit it names. -/
  measure : Measure
  /-- What the unit is, in full. -/
  description : String
deriving DecidableEq

namespace Spelling

/-- The words that name a unit, by dimension. -/
def table : List Spelling := [
  ⟨"D", ⟨.angle, "deg", "deg"⟩, "degrees"⟩,
  ⟨"R", ⟨.angle, "rad", "rad"⟩, "radians"⟩,
  ⟨"deg", ⟨.angle, "deg", "deg"⟩, "degrees"⟩,
  ⟨"rad", ⟨.angle, "rad", "rad"⟩, "radians"⟩,
  ⟨"C", ⟨.temperature, "C", "C"⟩, "Celsius"⟩,
  ⟨"F", ⟨.temperature, "F", "F"⟩, "Fahrenheit"⟩,
  ⟨"K", ⟨.temperature, "K", "K"⟩, "Kelvin"⟩,
  ⟨"degC", ⟨.temperature, "C", "C"⟩, "Celsius"⟩,
  ⟨"degF", ⟨.temperature, "F", "F"⟩, "Fahrenheit"⟩,
  ⟨"degK", ⟨.temperature, "K", "K"⟩, "Kelvin"⟩,
  ⟨"mm", ⟨.length, "mm", "mm"⟩, "millimeters"⟩,
  ⟨"cm", ⟨.length, "cm", "cm"⟩, "centimeters"⟩,
  ⟨"m", ⟨.length, "m", "m"⟩, "meters"⟩,
  ⟨"km", ⟨.length, "km", "km"⟩, "kilometers"⟩,
  ⟨"\"", ⟨.length, "in", "in"⟩, "inches"⟩,
  ⟨"in", ⟨.length, "in", "in"⟩, "inches"⟩,
  ⟨"ft", ⟨.length, "ft", "ft"⟩, "feet"⟩,
  ⟨"yds", ⟨.length, "yds", "yds"⟩, "yards"⟩,
  ⟨"mi", ⟨.length, "mi", "mi"⟩, "miles"⟩,
  ⟨"au", ⟨.length, "au", "au"⟩, "astronomical units"⟩,
  ⟨"pars", ⟨.length, "pars", "pars"⟩, "parsecs"⟩,
  ⟨"hz", ⟨.frequency, "Hz", "Hz"⟩, "hertz"⟩,
  ⟨"Hz", ⟨.frequency, "Hz", "Hz"⟩, "hertz"⟩,
  ⟨"kHz", ⟨.frequency, "kHz", "kHz"⟩, "kilohertz"⟩,
  ⟨"khz", ⟨.frequency, "kHz", "kHz"⟩, "kilohertz"⟩,
  ⟨"MHz", ⟨.frequency, "MHz", "MHz"⟩, "megahertz"⟩,
  ⟨"mhz", ⟨.frequency, "MHz", "MHz"⟩, "megahertz"⟩,
  ⟨"GHz", ⟨.frequency, "GHz", "GHz"⟩, "gigahertz"⟩,
  ⟨"ghz", ⟨.frequency, "GHz", "GHz"⟩, "gigahertz"⟩,
  ⟨"Ang", ⟨.wavelength, "Ang", "A"⟩, "angstroms"⟩,
  ⟨"ang", ⟨.wavelength, "Ang", "A"⟩, "angstroms"⟩,
  ⟨"w", ⟨.wavelength, "waves", "waves"⟩, "waves"⟩,
  ⟨"wave", ⟨.wavelength, "waves", "waves"⟩, "waves"⟩,
  ⟨"waves", ⟨.wavelength, "waves", "waves"⟩, "waves"⟩,
  ⟨"ftw", ⟨.wavelength, "ftw", "ft-wave"⟩, "foot-wavelength"⟩,
  ⟨"mph", ⟨.speed, "mph", "mph"⟩, "miles per hour"⟩,
  ⟨"kph", ⟨.speed, "kph", "kph"⟩, "kilometers per hour"⟩,
  ⟨"g", ⟨.mass, "g", "g"⟩, "grams"⟩,
  ⟨"mg", ⟨.mass, "mg", "mg"⟩, "milligrams"⟩,
  ⟨"kg", ⟨.mass, "kg", "kg"⟩, "kilograms"⟩,
  ⟨"N", ⟨.force, "N", "N"⟩, "newtons"⟩,
  ⟨"ftlbs", ⟨.force, "ftlbs", "ftlbs"⟩, "foot-pounds"⟩,
  ⟨"ftlb", ⟨.force, "ftlbs", "ftlbs"⟩, "foot-pounds"⟩,
  ⟨"J", ⟨.energy, "J", "J"⟩, "joules"⟩,
  ⟨"atm", ⟨.pressure, "atm", "atm"⟩, "atmospheres"⟩,
  ⟨"psi", ⟨.pressure, "psi", "psi"⟩, "pounds per square inch"⟩,
  ⟨"kpa", ⟨.pressure, "kPa", "kPa"⟩, "kilopascals"⟩,
  ⟨"kPa", ⟨.pressure, "kPa", "kPa"⟩, "kilopascals"⟩,
  ⟨"kV", ⟨.voltage, "kV", "kV"⟩, "kilovolts"⟩,
  ⟨"V", ⟨.voltage, "V", "V"⟩, "volts"⟩,
  ⟨"mV", ⟨.voltage, "mV", "mV"⟩, "millivolts"⟩,
  ⟨"uV", ⟨.voltage, "uV", "uV"⟩, "microvolts"⟩,
  ⟨"A", ⟨.current, "A", "A"⟩, "amps"⟩,
  ⟨"mA", ⟨.current, "mA", "mA"⟩, "milliamps"⟩,
  ⟨"uA", ⟨.current, "uA", "uA"⟩, "microamps"⟩,
  ⟨"Ohm", ⟨.resistance, "Ohm", "Ohm"⟩, "ohms"⟩,
  ⟨"ohm", ⟨.resistance, "Ohm", "Ohm"⟩, "ohms"⟩,
  ⟨"kOhm", ⟨.resistance, "kOhm", "kOhm"⟩, "kilo-ohms"⟩,
  ⟨"kohm", ⟨.resistance, "kOhm", "kOhm"⟩, "kilo-ohms"⟩,
  ⟨"MOhm", ⟨.resistance, "MOhm", "MOhm"⟩, "mega-ohms"⟩,
  ⟨"mohm", ⟨.resistance, "MOhm", "MOhm"⟩, "mega-ohms"⟩,
  ⟨"cF", ⟨.capacitance, "capF", "F"⟩, "farads"⟩,
  ⟨"capF", ⟨.capacitance, "capF", "F"⟩, "farads"⟩,
  ⟨"mF", ⟨.capacitance, "mF", "mF"⟩, "millifarads"⟩,
  ⟨"uF", ⟨.capacitance, "uF", "uF"⟩, "microfarads"⟩,
  ⟨"nF", ⟨.capacitance, "nF", "nF"⟩, "nanofarads"⟩,
  ⟨"pF", ⟨.capacitance, "pF", "pF"⟩, "picofarads"⟩,
  ⟨"iH", ⟨.inductance, "indH", "H"⟩, "henrys"⟩,
  ⟨"mH", ⟨.inductance, "indmH", "mH"⟩, "millihenrys"⟩,
  ⟨"ns", ⟨.time, "ns", "ns"⟩, "nanoseconds"⟩,
  ⟨"us", ⟨.time, "us", "us"⟩, "microseconds"⟩,
  ⟨"ms", ⟨.time, "ms", "ms"⟩, "milliseconds"⟩,
  ⟨"S", ⟨.time, "sec", "sec"⟩, "seconds"⟩,
  ⟨"M", ⟨.time, "min", "min"⟩, "minutes"⟩,
  ⟨"H", ⟨.time, "hrs", "hrs"⟩, "hours"⟩,
  ⟨"sec", ⟨.time, "sec", "sec"⟩, "seconds"⟩,
  ⟨"min", ⟨.time, "min", "min"⟩, "minutes"⟩,
  ⟨"hr", ⟨.time, "hrs", "hrs"⟩, "hours"⟩,
  ⟨"hrs", ⟨.time, "hrs", "hrs"⟩, "hours"⟩,
  ⟨"am", ⟨.time, "am", "am"⟩, "AM"⟩,
  ⟨"pm", ⟨.time, "pm", "pm"⟩, "PM"⟩,
  ⟨"dy", ⟨.time, "days", "days"⟩, "days"⟩,
  ⟨"days", ⟨.time, "days", "days"⟩, "days"⟩,
  ⟨"mon", ⟨.time, "mon", "mon"⟩, "months"⟩,
  ⟨"yrs", ⟨.time, "yrs", "yrs"⟩, "years"⟩,
  ⟨"JD", ⟨.time, "Jd", "Jd"⟩, "Julian days"⟩,
  ⟨"Jd", ⟨.time, "Jd", "Jd"⟩, "Julian days"⟩,
  ⟨"J2k", ⟨.time, "J2000", "J2000"⟩, "J2000 epoch days"⟩,
  ⟨"J2000", ⟨.time, "J2000", "J2000"⟩, "J2000 epoch days"⟩
]

/-- The word for a unit that the text begins with. -/
def begins? (text : List Char) : Option Spelling :=
  Text.longestMatch spelling table text

/-- The entries of `entries` whose key no earlier one has. -/
def firstOfKey (entries : List Spelling) : List Spelling :=
  entries.foldl (fun kept s =>
    if kept.any (fun k => k.measure.key == s.measure.key) then kept else kept ++ [s]) []

/-- The units of the table, one word for each, those of one dimension
    together, in the order of their first mention. -/
def listing : List Spelling :=
  let units := firstOfKey table
  let dimensions := units.foldl (fun ds s =>
    if ds.contains s.measure.dimension then ds else ds ++ [s.measure.dimension]) []
  dimensions.flatMap fun d => units.filter fun s => s.measure.dimension == d

end Spelling

/-- The measure of the given key; failing that, the one spelled like it. The
    empty key is that of bare numbers. -/
def ofKey? (key : String) : Option Measure :=
  if key == "" then some plain
  else
    (Spelling.table.find? fun s => s.measure.key == key).or
      (Spelling.table.find? fun s => s.spelling == key) |>.map Spelling.measure

end Reckoner.Measure
