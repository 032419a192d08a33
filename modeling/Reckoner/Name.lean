import Reckoner.Literal
import Reckoner.Store

/-!
# Names

A name is a run of letters. In a line it stands for its value, or for the
question what its value is; with a colon and a unit behind it, for that value
in the unit. Behind a name, `=` and a literal right after it give the name that
value at once, while the line is read.
-/

namespace Reckoner

/-- What a name is in a line. -/
inductive Mention
  /-- An operand. -/
  | operand (q : Quantity)
  /-- A name with its new value. -/
  | assignment (q : Quantity)

namespace Quantity

/-- The text begins with an assignment to the name before it. -/
def startsAssignment : List Char → Bool
  | '=' :: c :: _ => c.isDigit || c == '-'
  | _ => false

/-- The text begins with a unit for the name before it. -/
def startsMeasure : List Char → Bool
  | ':' :: ':' :: _ => false
  | ':' :: _ => true
  | _ => false

/-- The target with the value of a literal. A literal without a unit leaves the
    target its own. -/
def assigned (target literal : Quantity) : Quantity :=
  { target with
    magnitude := literal.magnitude
    measure := literal.measure.orElse target.measure
    format := literal.format
    literal := ""
    isVariable := true
    isUnset := false
    isConstant := false }

/-- Gives a name the unit behind it, if there is one. -/
def readNameMeasure (q : Quantity) : Scan Quantity := do
  if startsMeasure (← get) then
    Scan.drop 1
    q.readMeasure
  else return q

/-- Gives a name the value that is assigned to it, if there is one. -/
def readAssignment [DigitLimit] (q : Quantity) : Scan Mention := do
  if startsAssignment (← get) then
    Scan.drop 1
    return .assignment (q.assigned (← readLiteral))
  else return .operand q

/-- A name as it stands in the store. -/
def named (store : Store) (name : String) : Quantity :=
  (store.lookup? name).getD (unset name)

/-- Reads a name, with the values of the store. -/
def readName [DigitLimit] (store : Store) : Scan Mention := do
  Scan.skipBlanks
  let text ← get
  let name := String.ofList (Text.letters text)
  if name == "" then throw (.failure (.unknownName (String.ofList text)))
  else
    Scan.drop (Text.letters text).length
    let q ← (named store name).readNameMeasure
    q.readAssignment

end Quantity

end Reckoner
