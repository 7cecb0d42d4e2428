import AsmLexer.Source.Position
import AsmLexer.Token.Kind

/-!
# Tokens

A token is a range of the source and what stands there. Registers, opcodes and literals carry a
number. The numbers are integers of any size: the reader of a source keeps them in their bounds, a
token made by hand need not.
-/

namespace AsmLexer

/-- What a token is, apart from where it stands. -/
inductive Token.Body
  | comma
  | colon
  | directive (d : Directive)
  | register (ordinal : Int)
  | opcode (code : Int)
  | identifier
  | unsigned (value : Int)
  | signed (value : Int)
  | unknown (code : Rat)
deriving DecidableEq

structure Token where
  body : Token.Body
  range : Range
deriving DecidableEq

namespace Token

def Body.kind : Body → Kind
  | .comma => .comma
  | .colon => .colon
  | .directive d => .directive d
  | .register _ => .register
  | .opcode _ => .opcode
  | .identifier => .identifier
  | .unsigned _ => .unsigned
  | .signed _ => .signed
  | .unknown code => .unknown code

def kind (t : Token) : Kind :=
  t.body.kind

end Token

end AsmLexer
