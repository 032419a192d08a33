import Reckoner.Report
import Reckoner.Text.Quoted

/-!
# Notices

A report as people get to see it: the error, or else the warnings and the value.
A line without a value then shows nothing.

A notice can also be made of any JSON value in place of a report
(`Notice.ofJson?`). Members that it does not have count as nothing, and values
other than texts are put in words, those of lists and objects in brackets.
Anything with items can hold warnings: the items of a list, the keys of an
object, the characters of a text.
-/

namespace Reckoner

/-- How reports are written. -/
inductive Style
  | human
  | json
deriving DecidableEq

/-- What people get to see of a report. -/
inductive Notice
  | failure (error : String)
  /-- The warnings and the value; an empty text is none. -/
  | success (warnings : List String) (value : String)
deriving DecidableEq

/-- The notice in lines. -/
def Notice.text : Notice → String
  | failure error => "Error: " ++ error ++ "\n"
  | success warnings value =>
    String.join (warnings.map fun w => "Warning: " ++ w ++ "\n") ++
      (if value.isEmpty then "" else value ++ "\n")

/-- The notice of a report. -/
def Report.notice (r : Report) : Notice :=
  match r.outcome with
  | .error text _ => .failure text
  | .value _ text => .success r.warnings text
  | .nothing => .success r.warnings ""

/-- The report in the given style. -/
def Report.written (style : Style) (r : Report) : String :=
  match style with
  | .human => r.notice.text
  | .json => r.json.text ++ "\n"

/-! ## Of other values -/

namespace Json

/-- A text in quotes. -/
def quotedWords (text : String) : String :=
  String.ofList (Text.quoted text.toList)

mutual

/-- The words for a value within a list. -/
def itemWords : Json → String
  | .null => "None"
  | .bool b => if b then "True" else "False"
  | .whole n => toString n
  | .real x => plainText x
  | .string text => quotedWords text
  | .array items => "[" ++ ", ".intercalate (itemsWords items) ++ "]"
  | .object members => "\x7b" ++ ", ".intercalate (membersWords members) ++ "\x7d"

/-- The words for the items of a list. -/
def itemsWords : List Json → List String
  | [] => []
  | item :: items => itemWords item :: itemsWords items

/-- The words for the members of an object. -/
def membersWords : List (String × Json) → List String
  | [] => []
  | (key, value) :: members =>
    (quotedWords key ++ ": " ++ itemWords value) :: membersWords members

end

/-- The words for a value; a text is its own. -/
def words : Json → String
  | .string text => text
  | j => itemWords j

/-- The words for each item of a value that has items. -/
def words? : Json → Option (List String)
  | .array items => some (items.map words)
  | .object members => some (members.map Prod.fst)
  | .string text => some (text.toList.map Char.toString)
  | .null | .bool _ | .whole _ | .real _ => none

end Json

/-- What a value lacks to make a notice. -/
inductive Notice.Lack
  | members
  /-- What is in the place of the warnings has no items. -/
  | items
deriving DecidableEq

/-- The notice of a value in place of a report. -/
def Notice.ofJson? (j : Json) : Except Notice.Lack Notice :=
  match j with
  | .object _ =>
    let member := fun key => (j.member? key).getD .null
    if !(member "ok").isSomething then .ok (.failure (member "error").words)
    else
      match ((j.member? "warnings").getD (.array [])).words? with
      | none => .error .items
      | some warnings =>
        .ok (.success warnings
          (if (member "result").isSomething then (member "result").words else ""))
  | _ => .error .members

end Reckoner
