import AsmLexer.Unicode.Alphabetic
import AsmLexer.Unicode.Number
import AsmLexer.Unicode.WhiteSpace

/-!
# Character classes of the language

Names are runs of letters and underscores. The run that a faulty register name extends over also
takes in numerals, and no underscore. The first character of a lexeme alone says which kind of
lexeme it opens; the characters with a meaning of their own come before the classes.
-/

namespace AsmLexer

/-- A character of an identifier, a mnemonic or a directive. -/
def isNameChar (c : Char) : Bool :=
  c == '_' || Unicode.isAlphabetic c

/-- A letter or a numeral of any script. -/
def isAlphanumeric (c : Char) : Bool :=
  Unicode.isAlphabetic c || Unicode.isNumber c

inductive Opening
  | lineFeed
  | directive
  | comment
  | comma
  | colon
  | register
  | zero
  | blank
  | word
  | number
  | nothing
deriving DecidableEq

namespace Opening

def of (c : Char) : Opening :=
  if c = '\n' then .lineFeed
  else if c = '%' then .directive
  else if c = '#' then .comment
  else if c = ',' then .comma
  else if c = ':' then .colon
  else if c = '$' then .register
  else if c = '0' then .zero
  else if Unicode.isWhiteSpace c then .blank
  else if isNameChar c then .word
  else if c.isDigit ∨ c = '-' then .number
  else .nothing

theorem isNameChar_of_of_eq_word {c : Char} (h : of c = .word) : isNameChar c = true := by
  unfold of at h
  grind

end Opening

end AsmLexer
