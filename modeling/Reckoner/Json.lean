import Reckoner.Decimal.Shortest

/-!
# JSON

JSON values, whose objects keep the order of their members, and how they are
written over several lines: each member on a line of its own, indented by two
blanks a level. Text stays as it is where it can, and the doubles without
digits have words that are not JSON proper.
-/

namespace Reckoner

/-- A JSON value. -/
inductive Json
  | null
  | bool (b : Bool)
  | whole (n : Int)
  | real (x : Float)
  | string (text : String)
  | array (items : List Json)
  | object (members : List (String × Json))

namespace Json

/-- A hexadecimal numeral of four digits or more. -/
def fourDigits (n : Nat) : List Char :=
  let digits := Nat.toDigits 16 n
  List.replicate (4 - digits.length) '0' ++ digits

/-- A character in a string literal. -/
def escape (c : Char) : List Char :=
  match c with
  | '"' => ['\\', '"']
  | '\\' => ['\\', '\\']
  | '\n' => ['\\', 'n']
  | '\r' => ['\\', 'r']
  | '\t' => ['\\', 't']
  | '\x08' => ['\\', 'b']
  | '\x0c' => ['\\', 'f']
  | c => if c < ' ' then '\\' :: 'u' :: fourDigits c.toNat else [c]

/-- A string literal. -/
def quoted (text : String) : String :=
  "\"" ++ String.ofList (text.toList.flatMap escape) ++ "\""

/-- A double. -/
def realText (x : Float) : String :=
  if x.isNaN then "NaN"
  else if x.isInf then (if 0.0 < x then "Infinity" else "-Infinity")
  else plainText x

/-- A new line with the given indentation. -/
def newLine (indent : Nat) : String :=
  "\n" ++ String.ofList (List.replicate (2 * indent) ' ')

mutual

/-- A value written at the given level of indentation. -/
def write (indent : Nat) : Json → String
  | null => "null"
  | bool b => if b then "true" else "false"
  | whole n => toString n
  | real x => realText x
  | string text => quoted text
  | array [] => "[]"
  | array (item :: items) =>
    "[" ++ newLine (indent + 1) ++ write (indent + 1) item ++ writeItems (indent + 1) items ++
      newLine indent ++ "]"
  | object [] => "\x7b\x7d"
  | object ((key, value) :: members) =>
    "\x7b" ++ newLine (indent + 1) ++ quoted key ++ ": " ++ write (indent + 1) value ++
      writeMembers (indent + 1) members ++ newLine indent ++ "\x7d"

/-- The items behind the first one. -/
def writeItems (indent : Nat) : List Json → String
  | [] => ""
  | item :: items => "," ++ newLine indent ++ write indent item ++ writeItems indent items

/-- The members behind the first one. -/
def writeMembers (indent : Nat) : List (String × Json) → String
  | [] => ""
  | (key, value) :: members =>
    "," ++ newLine indent ++ quoted key ++ ": " ++ write indent value ++
      writeMembers indent members

end

/-- The text of a value. -/
def text (j : Json) : String :=
  write 0 j

/-- The member of the given key, if the value is an object and has one. -/
def member? (key : String) : Json → Option Json
  | object members => (members.find? fun m => m.1 == key).map Prod.snd
  | _ => none

/-- Values that count as something: all but nothing, `false`, zero and what is
    empty. -/
def isSomething : Json → Bool
  | null => false
  | bool b => b
  | whole n => n != 0
  | real x => x != 0.0
  | string text => text != ""
  | array items => !items.isEmpty
  | object members => !members.isEmpty

end Json

end Reckoner
