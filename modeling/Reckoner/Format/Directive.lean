import Reckoner.Text.Scan
import Reckoner.Text.Surrogate

/-!
# Display formats

A display format is a text with directives in it: `%`, flags, a width, a
precision and the letter of a conversion, as in `%+08.2f`. Reading a format
(`pieces`) takes it apart into plain characters and directives; it never fails,
but ends with a broken piece where a directive is cut short or asks for more
than there can be.

A format shows one argument, so exactly one piece of it has to want one: a
directive does, except for `%%`, and so does a `*` in place of a width or a
precision.
-/

namespace Reckoner.Format

/-- Why a format cannot show its argument. -/
inductive Refusal
  /-- A directive names its argument. -/
  | wantsMapping
  /-- The format ends within a directive. -/
  | incomplete
  | widthTooBig
  | precisionTooBig
  /-- A directive wants another argument than the one there is. -/
  | nothingLeft
  /-- No directive wants the argument. -/
  | nothingShown
  /-- A `*` wants a whole number. -/
  | wantsWholeSize
  /-- The conversion wants a whole number. -/
  | wantsWhole (conversion : Char)
  /-- A character is wanted, and the argument is not whole. -/
  | wantsCharacter
  | noSuchCharacter
  /-- A precision that whole numbers are not written to. -/
  | tooPrecise
  /-- No conversion has this letter. -/
  | unknownConversion (letter : Char) (position : Nat)
deriving DecidableEq

/-- The code of a letter in hexadecimal. -/
def codeText (letter : Char) : String :=
  "0x" ++ String.ofList (Nat.toDigits 16 (Text.codeOf letter))

/-- A letter in print, where it has a form of its own there. -/
def printedLetter (letter : Char) : Char :=
  if '\x1f' ≤ letter && letter ≤ '~' then letter else '?'

/-- The wording of a refusal. -/
def Refusal.text : Refusal → String
  | wantsMapping => "format requires a mapping"
  | incomplete => "incomplete format"
  | widthTooBig => "width too big"
  | precisionTooBig => "precision too big"
  | nothingLeft => "not enough arguments for format string"
  | nothingShown => "not all arguments converted during string formatting"
  | wantsWholeSize => "* wants int"
  | wantsWhole conversion => s!"%{conversion} format: an integer is required, not float"
  | wantsCharacter => "%c requires int or char"
  | noSuchCharacter => "%c arg not in range(0x110000)"
  | tooPrecise => "precision too large"
  | unknownConversion letter position =>
    "unsupported format character '" ++ toString (printedLetter letter) ++ "' (" ++
      codeText letter ++ ") at index " ++ toString position

/-- A width or a precision. -/
inductive Size
  | absent
  | count (n : Nat)
  /-- The argument gives it. -/
  | argument
deriving DecidableEq

/-- A directive. -/
structure Directive where
  /-- Pads behind the content (`-`). -/
  left : Bool
  /-- Writes a plus sign (`+`). -/
  plus : Bool
  /-- Writes a blank in place of a plus sign. -/
  blank : Bool
  /-- Marks the base, keeps the point and the zeros behind it (`#`). -/
  alternate : Bool
  /-- Pads with zeros (`0`). -/
  zero : Bool
  width : Size
  precision : Size
  /-- The letter of the conversion. -/
  conversion : Char
  /-- Where in the format the letter is. -/
  position : Nat
deriving DecidableEq

/-- A piece of a format. -/
inductive Piece
  | char (c : Char)
  | directive (d : Directive)
  /-- A directive that cannot be read, behind the given number of `*`. -/
  | broken (stars : Nat) (why : Refusal)
deriving DecidableEq

/-! ## Reading -/

/-- The flags of a directive. -/
def isFlag (c : Char) : Bool :=
  c == '-' || c == '+' || c == ' ' || c == '#' || c == '0'

/-- The greatest width. -/
def widthLimit : Nat := Nat.pow 2 63 - 1

/-- The greatest precision. -/
def precisionLimit : Nat := Nat.pow 2 31 - 1

/-- Reads a width or a precision up to the limit; there is none beyond it. -/
def readSize (limit : Nat) : List Char → Option Size × List Char
  | '*' :: rest => (some .argument, rest)
  | text =>
    let digits := text.takeWhile Char.isDigit
    let rest := text.dropWhile Char.isDigit
    if digits.isEmpty then (some .absent, text)
    else if Text.valueIn 10 digits ≤ limit then (some (.count (Text.valueIn 10 digits)), rest)
    else (none, rest)

/-- Reads a precision with its point; nothing behind the point is zero. -/
def readPrecision : List Char → Option Size × List Char
  | '.' :: rest =>
    match readSize precisionLimit rest with
    | (some .absent, rest) => (some (.count 0), rest)
    | read => read
  | text => (some .absent, text)

/-- Drops one of the letters that tell the length of an argument elsewhere. -/
def dropLength : List Char → List Char
  | c :: rest => if c == 'h' || c == 'l' || c == 'L' then rest else c :: rest
  | [] => []

/-- How many arguments a size wants. -/
def Size.wanted : Size → Nat
  | argument => 1
  | _ => 0

/-- Reads on behind a `%`, in a format of `total` characters. -/
def readDirective (total : Nat) : List Char → Piece × List Char
  | '%' :: rest => (.char '%', rest)
  | '(' :: _ => (.broken 0 .wantsMapping, [])
  | text =>
    let flags := text.takeWhile isFlag
    match readSize widthLimit (text.dropWhile isFlag) with
    | (none, _) => (.broken 0 .widthTooBig, [])
    | (some width, rest) =>
      match readPrecision rest with
      | (none, _) => (.broken width.wanted .precisionTooBig, [])
      | (some precision, rest) =>
        match dropLength rest with
        | [] => (.broken (width.wanted + precision.wanted) .incomplete, [])
        | c :: rest =>
          (.directive ⟨flags.contains '-', flags.contains '+', flags.contains ' ',
            flags.contains '#', flags.contains '0', width, precision, c,
            total - rest.length - 1⟩, rest)

/-- Reads at most `steps` pieces of a format of `total` characters. -/
def readPieces (total : Nat) : (steps : Nat) → List Char → List Piece
  | 0, _ => []
  | _, [] => []
  | steps + 1, '%' :: text =>
    let (piece, rest) := readDirective total text
    piece :: readPieces total steps rest
  | steps + 1, c :: text => .char c :: readPieces total steps text

/-- The pieces of a format; there are at most as many as characters. -/
def pieces (format : List Char) : List Piece :=
  readPieces format.length format.length format

end Reckoner.Format
