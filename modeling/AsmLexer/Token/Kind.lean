import AsmLexer.Machine.Directive
import AsmLexer.Number.Text

/-!
# Token kinds

Every kind has a numeric code and a name. A code outside the list still makes a kind, so that tokens
made by hand can be shown.
-/

namespace AsmLexer.Token

inductive Kind
  | comma
  | colon
  | directive (d : Directive)
  | register
  | opcode
  | identifier
  | unsigned
  | signed
  | unknown (code : Rat)
deriving DecidableEq

namespace Kind

/-- The kinds that have a name of their own, by code. -/
def all : List Kind :=
  [.comma, .colon] ++ Directive.all.map .directive ++
    [.register, .opcode, .identifier, .unsigned, .signed]

def directiveCode : Directive → Nat
  | .repeatStart => 10
  | .repeatEnd => 11
  | .ifStart => 12
  | .elseBranch => 13
  | .ifEnd => 14
  | .importFile => 15
  | .constant => 16

def directiveName : Directive → String
  | .repeatStart => "Repeat"
  | .repeatEnd => "EndRepeat"
  | .ifStart => "If"
  | .elseBranch => "Else"
  | .ifEnd => "Endif"
  | .importFile => "Import"
  | .constant => "Constant"

def code : Kind → Rat
  | .comma => 0
  | .colon => 1
  | .directive d => directiveCode d
  | .register => 100
  | .opcode => 101
  | .identifier => 102
  | .unsigned => 103
  | .signed => 104
  | .unknown code => code

def name : Kind → String
  | .comma => "Comma"
  | .colon => "Colon"
  | .directive d => directiveName d
  | .register => "Register"
  | .opcode => "Opcode"
  | .identifier => "Identifier"
  | .unsigned => "UnsignedIntegerLiteral"
  | .signed => "SignedIntegerLiteral"
  | .unknown code => "Unknown(" ++ Number.text code ++ ")"

def ofCode (code : Rat) : Kind :=
  (all.find? fun k ↦ k.code = code).getD (.unknown code)

@[simp] theorem code_ofCode (code : Rat) : (ofCode code).code = code := by
  unfold ofCode
  cases h : all.find? fun k ↦ k.code = code with
  | none => rfl
  | some k => simpa using List.find?_some h

end Kind

end AsmLexer.Token
