import AsmLexer.Command.Arguments
import AsmLexer.Text.Utf8

/-!
# The program

Reads the file that the command line names and prints what the command has to say.
-/

namespace AsmLexer.Program

/-- The text of a file, or how reading it failed. -/
def readSource (path : String) : IO (Except Command.Failure String) := do
  try
    let bytes ← IO.FS.readBinFile path
    return .ok (Text.Utf8.decode bytes.toList)
  catch failure =>
    -- Opening a path that leads nowhere reports its name; reading a directory does not.
    return .error <|
      match failure with
      | .noFileOrDirectory .. => Command.PathFault.missing.failure path
      | .inappropriateType none _ _ => Command.PathFault.isDirectory.failure path
      | .inappropriateType (some _) _ _ => Command.PathFault.notDirectory.failure path
      | .invalidArgument (some _) .. => Command.PathFault.tooLong.failure path
      | other => .exception (toString other) none

def carryOut : Command.Plan → IO Command.Output
  | .stop output => return output
  | .tokenize request => do
      let content ← readSource request.input
      return Command.tokenizeInput request content

def printText : Command.Channel × String → IO Unit
  | (.log, text) => IO.println text
  | (.error, text) => IO.eprintln text

end AsmLexer.Program

def main (args : List String) : IO UInt32 := do
  let output ← AsmLexer.Program.carryOut (AsmLexer.Command.plan args)
  output.printed.forM AsmLexer.Program.printText
  match output.thrown? with
  | none => return output.exitCode.toUInt32
  | some thrown =>
      IO.eprintln thrown.message
      return 1
