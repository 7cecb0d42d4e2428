import AsmLexer.Source.Position
import AsmLexer.Text.Slice

/-!
# Cursors

A cursor walks over a text one character at a time and keeps its position. It does not look at what
it steps over: the caller says whether a step crosses a line feed. It may walk past the end.
-/

namespace AsmLexer

structure Cursor where
  text : List Char
  file : Handle
  position : Position := .origin

namespace Cursor

/-- The character `ahead` places after the next one; a negative number looks back. -/
def peek (c : Cursor) (ahead : Int) : Option Char :=
  match c.position.offset + ahead with
  | .ofNat i => c.text[i]?
  | .negSucc _ => none

def current (c : Cursor) : Option Char :=
  c.peek 0

/-- Step over a character that is no line feed. -/
def advance (c : Cursor) : Cursor :=
  { c with position := c.position.right 1 }

/-- Step over a line feed. -/
def advanceLine (c : Cursor) : Cursor :=
  { c with position := c.position.nextLine }

def rangeFrom (c : Cursor) (start : Position) : Range :=
  ⟨start, c.position, c.file⟩

/-- The range of the last `length` characters, which are taken to lie in the current line. -/
def rangeOfLast (c : Cursor) (length : Int) : Range :=
  c.rangeFrom ⟨c.position.offset - length, c.position.row, c.position.column - length⟩

/-- How many characters are left; negative past the end. -/
def remaining (c : Cursor) : Int :=
  c.text.length - c.position.offset

def isAtEnd (c : Cursor) : Bool :=
  c.text.length ≤ c.position.offset

def textOfLast (c : Cursor) (length : Int) : List Char :=
  Text.slice c.text (c.position.offset - length) c.position.offset

end Cursor

end AsmLexer
