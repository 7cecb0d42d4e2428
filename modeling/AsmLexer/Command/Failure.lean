import AsmLexer.Diagnostic.Catalog
import AsmLexer.Diagnostic.Template
import AsmLexer.Lexer.Error
import AsmLexer.Text.Quoted
import AsmLexer.Value

/-!
# Failures of the command

What stops the command is not always a well-behaved error, so a failure may be any value at all.
The messages below are those of the catalog with their code in brackets.
-/

namespace AsmLexer.Command

inductive Failure
  /-- An error with a message, and the code of the operating system if it came with one. -/
  | exception (message : String) (code? : Option Value)
  | unsupported (cause : Unsupported)
  | value (v : Value)
  | absent

namespace Failure

def hasCode : Failure → Bool
  | .exception _ (some _) => true
  | _ => false

def isMissingFile : Failure → Bool
  | .exception _ (some (.string code)) => code == "ENOENT"
  | _ => false

/-- What a failure has to say. To ask it of a value without a text throws. -/
def reason : Failure → Except Thrown String
  | .exception message _ => .ok message
  | .unsupported cause => .ok cause.message
  | .value v => v.shown
  | .absent => .ok "undefined"

end Failure

/-- A message of the catalog with one argument, after its code. -/
def codedMessage (code : Diagnostic.Code) (name argument : String) : String :=
  "[" ++ code.text ++ "] " ++ Template.interpolate code.entry.message [(name, .text argument)]

def readMessage (path : String) (failure : Failure) : Except Thrown String :=
  if failure.isMissingFile then .ok (codedMessage .fileNotFound "path" path)
  else failure.reason.map (codedMessage .unreadableFile "reason")

def modeMessage (mode : String) : String :=
  codedMessage .unknownMode "mode" mode

def abortMessage (failure : Failure) : Except Thrown String :=
  failure.reason.map (codedMessage .aborted "reason")

inductive PathFault
  | missing
  | isDirectory
  | notDirectory
  | tooLong
  /-- A character that no path may hold. -/
  | holdsNull
deriving DecidableEq

def PathFault.failure (path : String) : PathFault → Failure
  | .missing =>
      .exception ("ENOENT: no such file or directory, open '" ++ path ++ "'")
        (some (.string "ENOENT"))
  | .isDirectory =>
      .exception "EISDIR: illegal operation on a directory, read" (some (.string "EISDIR"))
  | .notDirectory =>
      .exception ("ENOTDIR: not a directory, open '" ++ path ++ "'") (some (.string "ENOTDIR"))
  | .tooLong =>
      .exception ("ENAMETOOLONG: name too long, open '" ++ path ++ "'")
        (some (.string "ENAMETOOLONG"))
  | .holdsNull =>
      .exception ("The argument 'path' must be a string, Uint8Array, or URL without null bytes. " ++
          "Received " ++ Text.shown path)
        (some (.string "ERR_INVALID_ARG_VALUE"))

end AsmLexer.Command
