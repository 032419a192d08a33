import Reckoner.Text.Scan

/-!
# White space around lines

Whole lines, answers and command lines are stripped of white space before they
are looked at. White space is what the character database of Unicode says it
is: the blanks of scanning (`isSpace_of_isBlank`), a few more controls, and the
spaces and separators of all scripts.
-/

namespace Reckoner.Text

/-- The ranges of white space beyond the controls and the space of ASCII. -/
def spaceRanges : List (Char × Char) := [
  ('\u0085', '\u0085'),
  ('\u00a0', '\u00a0'),
  ('\u1680', '\u1680'),
  ('\u2000', '\u200a'),
  ('\u2028', '\u2029'),
  ('\u202f', '\u202f'),
  ('\u205f', '\u205f'),
  ('\u3000', '\u3000')
]

/-- White space. -/
def isSpace (c : Char) : Bool :=
  c == ' ' || ('\t' ≤ c && c ≤ '\x0d') || ('\x1c' ≤ c && c ≤ '\x1f') ||
    spaceRanges.any fun (first, last) => first ≤ c && c ≤ last

theorem isSpace_of_isBlank {c : Char} (h : isBlank c = true) : isSpace c = true := by
  simp only [isBlank, isSpace, Bool.or_eq_true] at h ⊢
  exact .inl (.inl h)

/-- The text without white space at either end. -/
def strip (text : List Char) : List Char :=
  ((text.dropWhile isSpace).reverse.dropWhile isSpace).reverse

/-- The first of the words of a text, which white space separates, and the text
    behind it. -/
def splitWord (text : List Char) : List Char × List Char :=
  (text.dropWhile isSpace).span fun c => !isSpace c

/-- The first two words of a text. -/
def firstWords (text : List Char) : List Char × List Char :=
  let (first, rest) := splitWord text
  (first, (splitWord rest).1)

end Reckoner.Text
