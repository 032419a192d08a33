import Reckoner.Measure.Rule
import Reckoner.Text.Lowercase
import Reckoner.Text.Space

/-!
# Settings

What a session can be set up with: the default formats, the angles the
trigonometric functions work in, limits, and the rules conversions go by.
-/

namespace Reckoner

/-- The unit of angles that have none. -/
inductive AngleUnit
  | deg
  | rad
deriving DecidableEq

namespace AngleUnit

/-- The name of an angle unit. -/
def name : AngleUnit → String
  | deg => "deg"
  | rad => "rad"

/-- The angle unit of the given name. -/
def ofName? (name : String) : Option AngleUnit :=
  [deg, rad].find? fun unit => unit.name == name

theorem ofName?_name (unit : AngleUnit) : ofName? unit.name = some unit := by
  cases unit <;> decide

/-- The angle unit that a text names in any case, white space around it left
    out; or the word there that names none. -/
def ofText (text : String) : Except String AngleUnit :=
  let word := String.ofList (Text.lower (Text.strip text.toList))
  match ofName? word with
  | some unit => .ok unit
  | none => .error word

/-- The wording for a word that names no angle unit. -/
def refusal (word : String) : String :=
  s!"Unknown angle unit '{word}', expected one of ('deg', 'rad')"

end AngleUnit

/-- The settings of a session. -/
structure Settings where
  /-- What angles without a unit are in. -/
  angle : AngleUnit
  /-- The format of real numbers that have none. -/
  realFormat : String
  /-- The format of whole numbers that have none. -/
  wholeFormat : String
  /-- The greatest length of a line, in characters. -/
  maxLength : Int
  /-- How deep conversion formulas may nest. -/
  maxDepth : Int
  /-- A question about a name is announced by a message. -/
  announcesQuestions : Bool
  /-- The rules of conversion. -/
  rules : List Measure.Rule

/-- The settings a session has unless told otherwise. -/
def Settings.default : Settings where
  angle := .deg
  realFormat := "%.9f"
  wholeFormat := "%d"
  maxLength := 4096
  maxDepth := 8
  announcesQuestions := true
  rules := Measure.Rule.table

end Reckoner
