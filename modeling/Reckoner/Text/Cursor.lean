import Reckoner.Text.Scan
import Reckoner.Text.LongestMatch
import Reckoner.Text.Quoted

/-!
# Cursors

A cursor is a place in a text: the characters passed so far, the nearest first,
and the characters still ahead. Moving passes characters from the second list
to the first, so the text stays the same (`text_advance`) and the place never
goes back (`offset_le_offset_advance`) nor beyond the end
(`offset_le_length_text`).

All that can be done with a cursor is a `Call` of it, which has an answer and
leaves a cursor for the next one (`perform`); the calls made one after another
are a `history`.
-/

namespace Reckoner.Text

/-- A place in a text. -/
structure Cursor where
  /-- The characters before the place, the nearest first. -/
  passed : List Char
  /-- The characters after the place. -/
  rest : List Char
deriving DecidableEq

namespace Cursor

/-- The text the cursor is in. -/
def text (c : Cursor) : List Char :=
  c.passed.reverse ++ c.rest

/-- The number of characters before the place. -/
def offset (c : Cursor) : Nat :=
  c.passed.length

/-- Passes `n` characters, or all there are. -/
def advance (c : Cursor) (n : Nat) : Cursor :=
  ⟨(c.rest.take n).reverse ++ c.passed, c.rest.drop n⟩

/-- The cursor in `text` at the given offset, or at the nearest end. -/
def ofText (text : List Char) (offset : Int) : Cursor :=
  (⟨[], text⟩ : Cursor).advance offset.toNat

/-! ## Looking -/

/-- The character `i` places ahead, or behind for a negative `i`. -/
def peek (c : Cursor) : Int → Option Char
  | .ofNat n => c.rest[n]?
  | .negSucc n => c.passed[n]?

/-- Nothing is ahead. -/
def isAtEnd (c : Cursor) : Bool :=
  c.rest.isEmpty

/-! ## Moving -/

/-- Passes `n` characters; none for a negative `n`. -/
def consume (c : Cursor) (n : Int) : Cursor :=
  c.advance n.toNat

/-- How many characters a slice of `n` from the place on asks for. One that
    would end before the start of the text ends that far before the end of the
    text instead. -/
def reach (c : Cursor) (n : Int) : Nat :=
  if (c.offset : Int) + n < 0 then ((c.text.length : Int) + n).toNat else n.toNat

/-- The slice of `n` characters from the place on, and the place after it. -/
def take (c : Cursor) (n : Int) : List Char × Cursor :=
  (c.rest.take (c.reach n), c.advance (c.reach n))

/-- The characters up to the next blank, and the place before it. -/
def takeToken (c : Cursor) : List Char × Cursor :=
  (token c.rest, c.advance (token c.rest).length)

/-- Passes the blanks ahead. -/
def skipBlanks (c : Cursor) : Cursor :=
  c.advance (c.rest.takeWhile isBlank).length

/-! ## Calls -/

/-- What a cursor can be called for. -/
inductive Call
  /-- The whole text. -/
  | text
  /-- The number of characters before the place. -/
  | offset
  /-- The text ahead. -/
  | rest
  /-- How many characters are ahead. -/
  | length
  /-- The text ahead, in quotes. -/
  | display
  | isAtEnd
  | peek (i : Int)
  | startsWith (spelling : String)
  | startsDigit
  | startsLetter
  | startsHex
  | startsNumber
  /-- The letters ahead. -/
  | letters
  /-- The digits of the hexadecimal numeral ahead. -/
  | hexDigits
  | consume (n : Int)
  | take (n : Int)
  | takeToken
  | skipBlanks
deriving DecidableEq

/-- What a call answers. -/
inductive Answer
  | nothing
  | text (text : List Char)
  | number (n : Nat)
  | truth (b : Bool)
deriving DecidableEq

/-- The answer to a call, and the cursor after it. -/
def perform (c : Cursor) : Call → Answer × Cursor
  | .text => (.text c.text, c)
  | .offset => (.number c.offset, c)
  | .rest => (.text c.rest, c)
  | .length => (.number c.rest.length, c)
  | .display => (.text ("TextCursor(".toList ++ quoted c.rest ++ [')']), c)
  | .isAtEnd => (.truth c.isAtEnd, c)
  | .peek i => (.text (c.peek i).toList, c)
  | .startsWith spelling => (.truth (Text.startsWith spelling c.rest), c)
  | .startsDigit => (.truth (Text.startsDigit c.rest), c)
  | .startsLetter => (.truth (Text.startsLetter c.rest), c)
  | .startsHex => (.truth (Text.startsHex c.rest), c)
  | .startsNumber => (.truth (Text.startsNumber c.rest), c)
  | .letters => (.text (Text.letters c.rest), c)
  | .hexDigits => (.text (Text.hexDigits c.rest), c)
  | .consume n => (.nothing, c.consume n)
  | .take n => (.text (c.take n).1, (c.take n).2)
  | .takeToken => (.text c.takeToken.1, c.takeToken.2)
  | .skipBlanks => (.nothing, c.skipBlanks)

/-- A call that has been made. -/
structure Step where
  before : Cursor
  call : Call
  answer : Answer
  after : Cursor
deriving DecidableEq

/-- The call made on the cursor. -/
def step (c : Cursor) (call : Call) : Step :=
  ⟨c, call, (c.perform call).1, (c.perform call).2⟩

/-- The calls made one after another. -/
def history (c : Cursor) : List Call → List Step
  | [] => []
  | call :: calls => c.step call :: (c.step call).after.history calls

/-! ## What moving keeps -/

@[simp]
theorem text_advance (c : Cursor) (n : Nat) : (c.advance n).text = c.text := by
  simp [text, advance]

theorem offset_le_length_text (c : Cursor) : c.offset ≤ c.text.length := by
  simp [text, offset]

theorem offset_advance (c : Cursor) (n : Nat) :
    (c.advance n).offset = c.offset + min n c.rest.length := by
  simp [offset, advance, Nat.add_comm]

theorem offset_le_offset_advance (c : Cursor) (n : Nat) :
    c.offset ≤ (c.advance n).offset := by
  rw [offset_advance]
  exact Nat.le_add_right _ _

theorem rest_skipBlanks (c : Cursor) : c.skipBlanks.rest = Text.skipBlanks c.rest := by
  simp only [skipBlanks, advance, Text.skipBlanks]
  induction c.rest with
  | nil => rfl
  | cons d r ih => by_cases hd : isBlank d <;> simp [List.takeWhile, List.dropWhile, hd, ih]

end Cursor

end Reckoner.Text
