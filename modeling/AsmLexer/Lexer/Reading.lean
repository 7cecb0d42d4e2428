import AsmLexer.Lexer.Error
import AsmLexer.Token.Basic

/-!
# Readings

What a step of the lexer finds at the front of the remaining text does not depend on where that
text stands. A reading says it in numbers of characters: how many stand before the part it is about
and how many that part has.
-/

namespace AsmLexer

inductive Reading
  /-- A line feed. -/
  | lineFeed
  /-- Blanks or a comment, up to the end of the line at most. -/
  | blank (length : Nat)
  /-- A token of `length` characters after `lead` others. -/
  | token (body : Token.Body) (lead length : Nat)
  /-- A character that begins nothing. -/
  | unexpected (char : Char)
  /-- An error at the place after `lead` characters, when `consumed` have been read. -/
  | atPoint (fault : PointFault) (lead consumed : Nat)
  /-- An error over `length` characters after `lead` others. -/
  | over (fault : SpanFault) (lead length : Nat)
  /-- A float literal after `lead` characters. -/
  | float (lead : Nat)
deriving DecidableEq

namespace Reading

def consumed : Reading → Nat
  | .lineFeed => 1
  | .blank length => length
  | .token _ lead length => lead + length
  | .unexpected _ => 0
  | .atPoint _ _ consumed => consumed
  | .over _ lead length => lead + length
  | .float lead => lead

def continues : Reading → Bool
  | .lineFeed => true
  | .blank _ => true
  | .token _ _ _ => true
  | _ => false

end Reading

end AsmLexer
