import AsmLexer.Diagnostic.Catalog
import AsmLexer.Diagnostic.Template
import AsmLexer.Lexer.Error
import AsmLexer.Source.Files

/-!
# Reports of lexical errors

An error is looked up in the catalog, its message is filled with what stands in the source, and the
line it points at is drawn with carets below. The line number sets the width of the gutter, so that
the bars of all lines stand below one another.
-/

namespace AsmLexer.Diagnostic

def codeOf : LexError → Code
  | .unexpected _ _ => .unexpectedCharacter
  | .atPoint .emptyIdentifier _ => .emptyIdentifier
  | .atPoint .secondDecimalPoint _ => .secondDecimalPoint
  | .atPoint .registerAtEnd _ => .registerAtEnd
  | .over .hexLiteral _ => .hexLiteral
  | .over .binaryLiteral _ => .binaryLiteral
  | .over .floatLiteral _ => .floatLiteral
  | .over .unsignedLiteral _ => .unsignedLiteral
  | .over .signedLiteral _ => .signedLiteral
  | .over .register _ => .register
  | .over .directive _ => .directive

/-- The arguments of the message: the character, or the text that the error covers. -/
def argumentsOf (source : SourceFile) : LexError → List (String × Argument)
  | .unexpected what _ => [("char", .text what)]
  | .over .hexLiteral range =>
      [("digits", .text (source.slice range.start.offset range.stop.offset))]
  | .over .register range =>
      [("name", .text (source.slice range.start.offset range.stop.offset))]
  | .over .directive range =>
      [("name", .text (source.slice range.start.offset range.stop.offset))]
  | _ => []

/-- How many characters are underlined: those of the range, and at least one. -/
def widthOf : LexError → Nat
  | .over _ range => max range.length.toNat 1
  | _ => 1

/-- An error with what the catalog says about it. -/
structure Diagnosis where
  entry : Entry
  args : List (String × Argument)
  message : String
  start : Position
  width : Nat

def diagnose (e : LexError) (source : SourceFile) : Diagnosis :=
  let entry := (codeOf e).entry
  let args := argumentsOf source e
  { entry, args
    message := Template.interpolate entry.message args
    start := e.start
    width := widthOf e }

/-- A report that cannot be drawn, because the error begins before its line does. -/
structure NegativeColumn where
  column : Int
deriving DecidableEq

def NegativeColumn.message (f : NegativeColumn) : String :=
  "Invalid count value: " ++ Number.text f.column

def repeated (count : Nat) (c : Char) : String :=
  String.ofList (List.replicate count c)

namespace Diagnosis

def header (d : Diagnosis) : String :=
  d.entry.severity.label ++ "[" ++ d.entry.code ++ "]: " ++ d.message

def location (d : Diagnosis) (path : String) : String :=
  "  --> " ++ path ++ ":" ++ d.start.displayNearest

/-- The number of the line that the error begins in, counted from one. -/
def lineNumber (d : Diagnosis) : String :=
  toString (d.start.row + 1)

/-- The gutter beside a line without a number. -/
def gutter (d : Diagnosis) : String :=
  " " ++ repeated d.lineNumber.length ' ' ++ " | "

def sourceLine (d : Diagnosis) (line : String) : String :=
  " " ++ d.lineNumber ++ " | " ++ line

def pointer (d : Diagnosis) : String :=
  d.gutter ++ repeated d.start.column.toNat ' ' ++ repeated d.width '^'

def help (d : Diagnosis) : List String :=
  match d.entry.suggestion with
  | some suggestion => [d.gutter, "   = help: " ++ Template.interpolate suggestion d.args]
  | none => []

def lines (d : Diagnosis) (source : SourceFile) : Except NegativeColumn (List String) :=
  match source.line? d.start.row with
  | none => .ok [d.header, d.location source.path]
  | some line =>
      if d.start.column < 0 then .error ⟨d.start.column⟩
      else
        .ok ([d.header, d.location source.path, d.gutter, d.sourceLine line, d.pointer] ++ d.help)

end Diagnosis

def report (e : LexError) (source : SourceFile) : Except NegativeColumn String :=
  ((diagnose e source).lines source).map ("\n".intercalate ·)

/-! ## Reports of bounded size -/

/-- The most characters that a text may have. -/
def textLimit : Nat := 536870888

inductive DrawFault
  | negativeColumn (fault : NegativeColumn)
  | tooLong
deriving DecidableEq

def DrawFault.message : DrawFault → String
  | .negativeColumn fault => fault.message
  | .tooLong => "Invalid string length"

/-- Whether the carets would end beyond the limit of a text. -/
def Diagnosis.isTooLong (d : Diagnosis) (source : SourceFile) : Bool :=
  (source.line? d.start.row).isSome && 0 ≤ d.start.column &&
    textLimit < d.start.column.toNat + d.width

/-- A report that is only drawn if it can be held. An error made by hand may point anywhere. -/
def boundedReport (e : LexError) (source : SourceFile) : Except DrawFault String :=
  if (diagnose e source).isTooLong source then .error .tooLong
  else (report e source).mapError .negativeColumn

end AsmLexer.Diagnostic
