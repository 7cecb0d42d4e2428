import AsmLexer.Unicode.WhiteSpace
import AsmLexer.Unicode.Alphabetic
import AsmLexer.Unicode.Number
import AsmLexer.Number.Text
import AsmLexer.Text.Slice
import AsmLexer.Text.Lines
import AsmLexer.Text.Utf8
import AsmLexer.Text.Digits
import AsmLexer.Value.Fields
import AsmLexer.Value.Json
import AsmLexer.Machine.Register
import AsmLexer.Machine.Directive
import AsmLexer.Machine.Instruction
import AsmLexer.Source.Files
import AsmLexer.Source.Cursor
import AsmLexer.Lexer.Run
import AsmLexer.Diagnostic.Report
import AsmLexer.Token.Display
import AsmLexer.Command.Workspace
import AsmLexer.Main
import AsmLexer.Proofs.CharClass
import AsmLexer.Proofs.Decimal
import AsmLexer.Proofs.Coverage
import AsmLexer.Proofs.LiteralReading
import AsmLexer.Proofs.NameReading
import AsmLexer.Proofs.Reading
import AsmLexer.Proofs.Cutting
import AsmLexer.Proofs.Tokenization
import AsmLexer.Proofs.Errors
import AsmLexer.Proofs.Session
import AsmLexer.Proofs.Exposure
import AsmLexer.Proofs.Payload
import AsmLexer.Proofs.TokenStream
import AsmLexer.Proofs.Results
import AsmLexer.Proofs.Continuation
import AsmLexer.Proofs.Translation
import AsmLexer.Proofs.Lines
import AsmLexer.Proofs.Splitting
import AsmLexer.Proofs.Modes
import AsmLexer.Proofs.Numeral
import AsmLexer.Proofs.Lexeme
import AsmLexer.Proofs.Printing
import AsmLexer.Proofs.Reprinting
import AsmLexer.Proofs.Resumption
import AsmLexer.Proofs.Progress
import AsmLexer.Proofs.PrefixStability
import AsmLexer.Proofs.Lookahead
import AsmLexer.Proofs.LineEndings
import AsmLexer.Proofs.Comments
import AsmLexer.Proofs.DecimalLiteral
import AsmLexer.Proofs.SourceLines
import AsmLexer.Proofs.OneLine
import AsmLexer.Proofs.ErrorReport
import AsmLexer.Proofs.TokenLines
import AsmLexer.Proofs.Interpolation
import AsmLexer.Proofs.CommandOutput
import AsmLexer.Proofs.RadixLiteral
import AsmLexer.Proofs.Truncation
import AsmLexer.Proofs.Relexing
import AsmLexer.Proofs.LiteralDiagnosis
import AsmLexer.Proofs.Quotation
import AsmLexer.Proofs.Enumeration
import AsmLexer.Proofs.TableBuilding
import AsmLexer.Proofs.WordLookup
import AsmLexer.Proofs.Coordinates
import AsmLexer.Proofs.ReportLayout
import AsmLexer.Proofs.CanonicalNumeral
import AsmLexer.Proofs.ShownPayload
import AsmLexer.Proofs.TokenFields
import AsmLexer.Proofs.Lookup
import AsmLexer.Proofs.StoreHistory
import AsmLexer.Proofs.FileHistory
import AsmLexer.Proofs.CursorMoves
import AsmLexer.Proofs.NumberText
import AsmLexer.Proofs.JsonReading
import AsmLexer.Proofs.LexerCursor
