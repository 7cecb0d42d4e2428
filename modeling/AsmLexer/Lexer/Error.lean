import AsmLexer.Source.Position

/-!
# Lexical errors

An error points at a place or covers a range. Two of them are kept for float literals, which are
not read yet: coming to one is no error of the source, and is told apart as `Unsupported`.
-/

namespace AsmLexer

/-- Errors that point at a place. -/
inductive PointFault
  | emptyIdentifier
  | secondDecimalPoint
  | registerAtEnd
deriving DecidableEq

/-- Errors that cover a range. -/
inductive SpanFault
  | hexLiteral
  | binaryLiteral
  | floatLiteral
  | unsignedLiteral
  | signedLiteral
  | register
  | directive
deriving DecidableEq

/-- An error of the source. What was not expected is a text: the lexer puts the one character
there, an error made by hand may have any. -/
inductive LexError
  | unexpected (what : String) (position : Position)
  | atPoint (fault : PointFault) (position : Position)
  | over (fault : SpanFault) (range : Range)
deriving DecidableEq

namespace LexError

def start : LexError → Position
  | .unexpected _ position => position
  | .atPoint _ position => position
  | .over _ range => range.start

end LexError

/-- A part of the language that is not read yet, met at a position. -/
structure Unsupported where
  feature : String
  position : Position
deriving DecidableEq

namespace Unsupported

def floatLiteral (position : Position) : Unsupported :=
  ⟨"float literals", position⟩

def message (u : Unsupported) : String :=
  u.feature ++ " are not implemented (at offset " ++ Number.text u.position.offset ++ ")"

end Unsupported

end AsmLexer
