/-!
# Scanning

The character classes of the calculator's language and the runs of them at the
head of a text. The classes are those of ASCII: a letter with an accent, a
digit of another script or a no-break space belongs to none of them.

A text that is being read is the list of its characters; reading drops
characters from its head and never puts any back.
-/

namespace Reckoner.Text

/-! ## Character classes -/

/-- The blanks between tokens: the space, and the controls from the tab to the
    carriage return. -/
def isBlank (c : Char) : Bool :=
  c == ' ' || ('\t' ≤ c && c ≤ '\x0d')

/-- The digits of hexadecimal numerals, in either case. -/
def isHexDigit (c : Char) : Bool :=
  c.isDigit || ('a' ≤ c && c ≤ 'f') || ('A' ≤ c && c ≤ 'F')

/-- The value of a digit, up to base sixteen. -/
def digitValue (c : Char) : Nat :=
  if c.isDigit then c.toNat - '0'.toNat
  else if 'a' ≤ c then c.toNat - 'a'.toNat + 10
  else c.toNat - 'A'.toNat + 10

/-- The number that a run of digits stands for in the given base. -/
def valueIn (base : Nat) (digits : List Char) : Nat :=
  digits.foldl (fun n d => base * n + digitValue d) 0

/-- A digit more multiplies by the base. -/
theorem valueIn_concat (base : Nat) (digits : List Char) (d : Char) :
    valueIn base (digits ++ [d]) = base * valueIn base digits + digitValue d :=
  List.foldl_append ..

/-! ## What a text begins with -/

/-- The text begins with a digit. -/
def startsDigit : List Char → Bool
  | c :: _ => c.isDigit
  | [] => false

/-- The text begins with a letter. -/
def startsLetter : List Char → Bool
  | c :: _ => c.isAlpha
  | [] => false

/-- The text begins with a digit, or with a sign or a point and a digit right
    behind it. -/
def startsNumber : List Char → Bool
  | c :: rest => c.isDigit || ((c == '-' || c == '.') && startsDigit rest)
  | [] => false

/-- The text begins with a zero, an `x` of either case and a hexadecimal
    digit. -/
def startsHex : List Char → Bool
  | z :: x :: d :: _ => z == '0' && (x == 'x' || x == 'X') && isHexDigit d
  | _ => false

/-! ## Runs at the head of a text -/

/-- The text without the blanks it begins with. -/
def skipBlanks (text : List Char) : List Char :=
  text.dropWhile isBlank

/-- The letters the text begins with. -/
def letters (text : List Char) : List Char :=
  text.takeWhile Char.isAlpha

/-- The digits of the hexadecimal numeral the text begins with, if it does. -/
def hexDigits (text : List Char) : List Char :=
  if startsHex text then (text.drop 2).takeWhile isHexDigit else []

/-- The characters before the first blank. -/
def token (text : List Char) : List Char :=
  text.takeWhile fun c => !isBlank c

theorem length_skipBlanks_le (text : List Char) :
    (skipBlanks text).length ≤ text.length :=
  (List.dropWhile_sublist isBlank).length_le

/-- What is left after the blanks begins with none. -/
theorem not_isBlank_of_skipBlanks {text rest : List Char} {c : Char}
    (h : skipBlanks text = c :: rest) : isBlank c = false := by
  induction text with
  | nil => simp [skipBlanks] at h
  | cons d text ih =>
    by_cases hd : isBlank d
    · exact ih (by simpa [skipBlanks, List.dropWhile, hd] using h)
    · have hcd : d = c := by
        have : d :: text = c :: rest := by simpa [skipBlanks, List.dropWhile, hd] using h
        exact (List.cons.inj this).1
      exact hcd ▸ Bool.eq_false_iff.mpr hd

end Reckoner.Text
