import AsmLexer.Command.Failure
import AsmLexer.Diagnostic.Report
import AsmLexer.Lexer.Run
import AsmLexer.Token.Display
import AsmLexer.Value.Json

/-!
# The tokenize command

The command reads a file, looks at the numeric mode, and shows the tokens of the file as lines or
as one JSON text. Whatever goes wrong first is the only thing it prints. An exception that is thrown
while something is being shown stops the command where it is.
-/

namespace AsmLexer.Command

inductive Channel
  | log
  | error
deriving DecidableEq

/-- What a command leaves behind: its exit code, what it printed, in order, and what it threw if it
did not come to its end. -/
structure Output where
  exitCode : Nat := 0
  printed : List (Channel × String) := []
  thrown? : Option Thrown := none
deriving DecidableEq

namespace Output

def failed (text : String) : Output :=
  { exitCode := 1, printed := [(.error, text)] }

/-- A failure whose text is marked as an error. -/
def failedMarked (text : String) : Output :=
  failed ("[ error ] " ++ text)

def logged (texts : List String) : Output :=
  { printed := texts.map (Channel.log, ·) }

def stopped (thrown : Thrown) : Output :=
  { thrown? := some thrown }

/-- Something is logged before all the rest. -/
def afterLogging (text : String) (o : Output) : Output :=
  { o with printed := (.log, text) :: o.printed }

end Output

structure Request where
  input : String
  numeric : String := "unsigned"
  json : Bool := false
deriving DecidableEq

/-- A failure with the message that is made for it, unless the making throws. -/
def refuse : Except Thrown String → Output
  | .ok message => .failedMarked message
  | .error thrown => .stopped thrown

/-- Log the lines of tokens one by one. -/
def printLines (source : SourceFile) : List Token → Output
  | [] => {}
  | t :: rest =>
      match t.line .standard source with
      | .ok line => (printLines source rest).afterLogging line
      | .error fault => .stopped (.error fault.message)

/-- Log all tokens in one text. -/
def printJson (source : SourceFile) (tokens : List Token) : Output :=
  match tokens.mapM (Token.view .standard · source) with
  | .ok views => .logged [(Value.list (views.map (·.value))).json 0]
  | .error fault => .stopped (.error fault.message)

def printTokenized (json : Bool) (source : SourceFile) : Tokenized → Output
  | .unsupported cause => refuse (abortMessage (.unsupported cause))
  | .error e =>
      match Diagnostic.report e source with
      | .ok report => .failed report
      | .error fault => .stopped (.rangeError fault.message)
  | .tokens tokens => if json then printJson source tokens else printLines source tokens

def tokenizeInput (request : Request) (content : Except Failure String) : Output :=
  match content with
  | .error failure => refuse (readMessage request.input failure)
  | .ok text =>
      match NumericMode.ofName? request.numeric with
      | none => .failedMarked (modeMessage request.numeric)
      | some mode =>
          let source : SourceFile := ⟨0, request.input, text⟩
          printTokenized request.json source (tokenize .standard mode 0 source.chars)

end AsmLexer.Command
