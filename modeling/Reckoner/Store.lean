import Reckoner.Message
import Reckoner.Quantity

/-!
# The store of named values

A store keeps a quantity for each of its names, in the order in which the names
came up. Some names are constants: they are in the store from the beginning and
cannot be given another value. All others are variables; a variable keeps its
place when it gets a new value, and goes only when all variables are cleared.
-/

namespace Reckoner

/-- A named value. The name is that of the quantity. -/
structure Entry where
  quantity : Quantity
  description : String
deriving DecidableEq

namespace Entry

/-- The name of an entry. -/
def name (e : Entry) : String :=
  e.quantity.name

/-- The entry is that of a constant. -/
def isConstant (e : Entry) : Bool :=
  e.quantity.isConstant

end Entry

/-- A constant: a name, a value, the measure of the value and what it is. -/
structure Constant where
  name : String
  magnitude : Magnitude
  measure : Measure
  description : String

/-- The entry of a constant. -/
def Constant.entry (c : Constant) : Entry where
  quantity :=
    { magnitude := c.magnitude, measure := c.measure, name := c.name,
      isVariable := true, isConstant := true }
  description := c.description

/-- The constants of mathematics that a session knows. -/
def Constant.table : List Constant := [
  ⟨"pi", .real 3.141592653589793, .radians, "ratio of circumference to diameter"⟩,
  ⟨"e", .real 2.718281828459045, .plain, "base of the natural logarithm"⟩
]

/-- Named values, no name twice. -/
structure Store where
  entries : List Entry
deriving DecidableEq

namespace Store

/-- The entry of the given name. -/
def find? (s : Store) (name : String) : Option Entry :=
  s.entries.find? fun e => e.name == name

/-- The value of the given name. -/
def lookup? (s : Store) (name : String) : Option Quantity :=
  (s.find? name).map Entry.quantity

/-- The entry takes the place of that of the same name, or the last one. -/
def put (s : Store) (e : Entry) : Store :=
  if s.entries.any fun old => old.name == e.name then
    ⟨s.entries.map fun old => if old.name == e.name then e else old⟩
  else ⟨s.entries ++ [e]⟩

/-- The store of the given constants. -/
def ofConstants (constants : List Constant) : Store :=
  constants.foldl (fun s c => s.put c.entry) ⟨[]⟩

/-- The store of a new session. -/
def initial : Store :=
  ofConstants Constant.table

/-- The entries of variables. -/
def variableEntries (s : Store) : List Entry :=
  s.entries.filter fun e => !e.isConstant

/-- The store without its variables. -/
def clear (s : Store) : Store :=
  ⟨s.entries.filter Entry.isConstant⟩

/-- The quantity as it is kept: a variable, read from nowhere. -/
def kept (q : Quantity) : Quantity :=
  { q with literal := "", isVariable := true, isUnset := false, isConstant := false }

/-- Gives the name of the quantity its value. It has to have a name, and not
    that of a constant. -/
def assign (s : Store) (q : Quantity) : Except Failure Store :=
  if q.name == "" then .error .unnamedTarget
  else
    match s.find? q.name with
    | some e =>
      if e.isConstant then .error (.constantTarget q.name)
      else .ok (s.put ⟨kept q, e.description⟩)
    | none => .ok (s.put ⟨kept q, ""⟩)

end Store

end Reckoner
