import AsmLexer.Machine.InstructionTable
import AsmLexer.Machine.Register
import AsmLexer.Source.Files
import AsmLexer.Token.Basic

/-!
# Tokens as text

A token is shown with its place, its kind, what it stands for and what is written in the source:
either as one line or as a record.
-/

namespace AsmLexer.Token

def lexeme (t : Token) (source : SourceFile) : String :=
  source.slice t.range.start.offset t.range.stop.offset

/-- The lowercase hexadecimal digits of a natural number. As long as it has more than 53 bits, its
last digit is written as a zero and left out of the rest. -/
def hexDigits (n : Nat) : List Char :=
  if n < Number.Binary64.exactBound then Nat.toDigits 16 n
  else hexDigits (n / 16) ++ ['0']
termination_by n
decreasing_by
  have hbound : 0 < Number.Binary64.exactBound := by decide
  omega

/-- An integer in lowercase hexadecimal digits. -/
def hexText (n : Int) : String :=
  String.ofList ((if n < 0 then ['-'] else []) ++ hexDigits n.natAbs)

/-- What a token stands for: the name of a register, the mnemonic of an opcode or its number if it
has none, the value of a literal. -/
def payload (table : InstructionTable) (t : Token) : Except LookupFault (Option String) :=
  match t.body with
  | .register ordinal => (Register.nameOfOrdinal ordinal).map fun name ↦ some ("$" ++ name)
  | .opcode code => .ok (some ((table.mnemonic? code).getD ("0x" ++ hexText code)))
  | .unsigned value => .ok (some (toString value))
  | .signed value => .ok (some (toString value))
  | _ => .ok none

/-- The line that shows a token after its place: kind, payload if any, and the quoted source. -/
def lineAt (place : String) (table : InstructionTable) (t : Token) (source : SourceFile) :
    Except LookupFault String :=
  (t.payload table).map fun payload ↦
    " ".intercalate ([place, t.kind.name] ++ payload.toList ++ ["'" ++ t.lexeme source ++ "'"])

/-- The line that shows a token. -/
def line (table : InstructionTable) (t : Token) (source : SourceFile) :
    Except LookupFault String :=
  t.lineAt t.range.start.display table source

/-- The line that shows a token whose place may be beyond any text. -/
def lineNearest (table : InstructionTable) (t : Token) (source : SourceFile) :
    Except LookupFault String :=
  t.lineAt t.range.start.displayNearest table source

/-- A token without the file it is from, as it is written to JSON. -/
structure View where
  start : Position
  stop : Position
  kind : String
  lexeme : String
  payload : Option String
deriving DecidableEq

def view (table : InstructionTable) (t : Token) (source : SourceFile) :
    Except LookupFault View :=
  (t.payload table).map fun payload ↦
    { start := t.range.start
      stop := t.range.stop
      kind := t.kind.name
      lexeme := t.lexeme source
      payload }

def positionValue (p : Position) : Value :=
  .record [("column", .number p.column), ("offset", .number p.offset), ("row", .number p.row)]

/-- A view as a record; the payload is left out where there is none. -/
def View.value (v : View) : Value :=
  .record
    ([("end", positionValue v.stop), ("kind", .string v.kind), ("lexeme", .string v.lexeme),
      ("start", positionValue v.start)] ++
      (v.payload.map fun payload ↦ ("payload", Value.string payload)).toList)

end AsmLexer.Token
