import Reckoner.Text.Printable
import Reckoner.Text.Surrogate

/-!
# Quoted text

A text in quotes, as it is written within a list. The quotes are single ones, or
double ones where the text has a single quote and no double one. The quote
itself and the backslash are escaped, and so is every character that is not
printable: by a letter, or by its code in as few of two, four or eight digits as
it fits in.
-/

namespace Reckoner.Text

/-- The number in hexadecimal, filled up with zeros to the given length. -/
def hexOfLength (length n : Nat) : List Char :=
  let digits := Nat.toDigits 16 n
  List.replicate (length - digits.length) '0' ++ digits

/-- The escape of a character by its code. -/
def codeEscape (code : Nat) : List Char :=
  if code < 0x100 then '\\' :: 'x' :: hexOfLength 2 code
  else if code < 0x10000 then '\\' :: 'u' :: hexOfLength 4 code
  else '\\' :: 'U' :: hexOfLength 8 code

/-- A character between the given quotes. -/
def escapeWithin (quote c : Char) : List Char :=
  if c == quote || c == '\\' then ['\\', c]
  else if c == '\n' then ['\\', 'n']
  else if c == '\r' then ['\\', 'r']
  else if c == '\t' then ['\\', 't']
  else if isPrintable (codeOf c) then [c]
  else codeEscape (codeOf c)

/-- The quotes for a text. -/
def quoteFor (text : List Char) : Char :=
  if text.contains '\'' && !text.contains '"' then '"' else '\''

/-- The text in quotes. -/
def quoted (text : List Char) : List Char :=
  let quote := quoteFor text
  quote :: text.flatMap (escapeWithin quote) ++ [quote]

end Reckoner.Text
