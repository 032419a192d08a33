import Reckoner.Measure.Spelling
import Reckoner.Message
import Reckoner.Numeral
import Reckoner.Quantity

/-!
# Literals

A literal is a numeral with what follows it: units, with or without a colon
before them, and a display format behind `:%`. A unit without a colon has to
end the word, so that `2max3` leaves `max` where it is. A hexadecimal numeral
takes nothing of this, but is shown in hexadecimal again.

Reading goes through the text from its head (`Scan`): it leaves the rest to be
read, also where it fails, and then says why. A whole number of more digits than
there may be is not refused: it is a fault, and interrupts whatever reads it.
-/

namespace Reckoner

/-- A reader of a text: what it makes of the head, or why it cannot, and in both
    cases the rest. -/
abbrev Scan := EStateM Snag (List Char)

namespace Scan

/-- Drops the blanks at the head. -/
def skipBlanks : Scan PUnit :=
  modify Text.skipBlanks

/-- Drops `n` characters. -/
def drop (n : Nat) : Scan PUnit :=
  modify (List.drop n)

/-- Takes the characters before the next blank. -/
def token : Scan String :=
  modifyGet fun text => (String.ofList (Text.token text), text.drop (Text.token text).length)

end Scan

/-- The word at the head of a text, or the one character that is no letter. -/
def Text.word (text : List Char) : String :=
  String.ofList (if startsLetter text then letters text else text.take 1)

namespace Quantity

/-! ## Units and formats -/

/-- Gives the quantity the unit at the head of the text. -/
def readMeasure (q : Quantity) : Scan Quantity := do
  let text ← get
  match Measure.Spelling.begins? text with
  | none => throw (.failure (.unknownUnit (Text.word text)))
  | some s =>
    Scan.drop s.spelling.length
    return { q with measure := s.measure }

/-- Gives the quantity the format at the head of the text. -/
def readFormat (q : Quantity) : Scan Quantity := do
  return { q with format := ← Scan.token }

/-- Gives the quantity the next unit behind a numeral, or its format, and tells
    whether more may follow. A double colon ends them, as it converts. -/
def readSuffixPart (q : Quantity) : Scan (Quantity × Bool) := do
  match ← get with
  | [] => return (q, false)
  | ':' :: ':' :: _ => return (q, false)
  | ':' :: '%' :: _ =>
    Scan.drop 1
    return (← q.readFormat, false)
  | ':' :: _ =>
    Scan.drop 1
    return (← q.readMeasure, true)
  | text =>
    match Measure.Spelling.begins? text with
    | none => return (q, false)
    | some s =>
      if Text.startsLetter (text.drop s.spelling.length) then return (q, false)
      else
        Scan.drop s.spelling.length
        return ({ q with measure := s.measure }, true)

/-- Gives the quantity the units and the format that follow a numeral. Each part
    but the last takes a character or more, so there are no more steps than
    characters. -/
def readSuffix : (steps : Nat) → Quantity → Scan Quantity
  | 0, q => return q
  | steps + 1, q => do
    let (q, more) ← q.readSuffixPart
    if more then readSuffix steps q else return q

/-! ## Literals -/

/-- The format of hexadecimal literals. -/
def hexFormat : String := "0x%X"

/-- The quantity of a hexadecimal literal. -/
def ofHex (digits : List Char) : Quantity where
  magnitude := .ofInt (Text.valueIn 16 digits)
  format := hexFormat
  literal := "0x" ++ String.ofList digits

/-- The quantity of a decimal numeral. -/
def ofNumeral (n : Numeral) : Quantity where
  magnitude := n.magnitude
  literal := String.ofList n.text

/-- Takes a decimal numeral for its quantity, unless it has too many digits. -/
def takeNumeral [DigitLimit] (n : Numeral) : Scan Quantity :=
  match n.fault? with
  | some f => throw (.fault f)
  | none => return ofNumeral n

section

variable [DigitLimit] {n : Numeral} {f : Quantity → Scan Quantity}

theorem takeNumeral_bind (h : n.Fits) : takeNumeral n >>= f = f (ofNumeral n) := by
  rw [takeNumeral, h]
  rfl

theorem fits_of_takeNumeral_bind {q : Quantity} {text rest : List Char}
    (h : (takeNumeral n >>= f) text = .ok q rest) : n.Fits := by
  rw [takeNumeral] at h
  split at h
  · cases h
  · assumption

theorem takeNumeral_bind_of_fault? {fault : Fault} (h : n.fault? = some fault) :
    takeNumeral n >>= f = throw (.fault fault) := by
  rw [takeNumeral, h]
  rfl

end

/-- Reads a literal. -/
def readLiteral [DigitLimit] : Scan Quantity := do
  Scan.skipBlanks
  let text ← get
  if Text.startsHex text then
    let digits := Text.hexDigits text
    Scan.drop (2 + digits.length)
    return ofHex digits
  else if !Text.startsNumber text then throw (.failure (.notANumber (String.ofList text)))
  else
    let (numeral, rest) := Numeral.read text
    set rest
    readSuffix rest.length (← takeNumeral numeral)

/-- Gives a unit to convert into the format behind it, if there is one. -/
def readTargetFormat (q : Quantity) : Scan Quantity := do
  if Text.startsWith ":%" (← get) then
    Scan.drop 1
    q.readFormat
  else return q

/-- Reads what a conversion converts into: a unit, and a format with it if there
    is one. A literal in its place lends its unit. -/
def readTarget [DigitLimit] : Scan Quantity := do
  Scan.skipBlanks
  let text ← get
  if Text.startsNumber text then readLiteral
  else
    Scan.drop (if text.head? = some ':' then 1 else 0)
    let q ← readMeasure { magnitude := .whole 0 }
    q.readTargetFormat

end Quantity

end Reckoner
