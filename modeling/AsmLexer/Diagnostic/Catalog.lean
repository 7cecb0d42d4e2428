/-!
# The catalog of diagnostics

Every failure that a user can meet has a code, a message, a description and mostly a suggestion.
The texts are templates.
-/

namespace AsmLexer.Diagnostic

inductive Severity
  | error
  | warning
  | note
deriving DecidableEq

namespace Severity

def all : List Severity :=
  [.error, .warning, .note]

def level : Severity → Nat
  | .error => 0
  | .warning => 1
  | .note => 2

def label : Severity → String
  | .error => "error"
  | .warning => "warning"
  | .note => "note"

def title (s : Severity) : String :=
  s.label.capitalize

end Severity

/-- The failures that the catalog knows: those of a source, then those of the command. -/
inductive Code
  | unexpectedCharacter
  | emptyIdentifier
  | hexLiteral
  | binaryLiteral
  | secondDecimalPoint
  | floatLiteral
  | unsignedLiteral
  | signedLiteral
  | register
  | registerAtEnd
  | directive
  | fileNotFound
  | unreadableFile
  | unknownMode
  | aborted
deriving DecidableEq

structure Entry where
  code : String
  description : String
  message : String
  suggestion : Option String
  severity : Severity := .error

namespace Code

def lexical : List Code :=
  [.unexpectedCharacter, .emptyIdentifier, .hexLiteral, .binaryLiteral, .secondDecimalPoint,
   .floatLiteral, .unsignedLiteral, .signedLiteral, .register, .registerAtEnd, .directive]

def command : List Code :=
  [.fileNotFound, .unreadableFile, .unknownMode, .aborted]

def all : List Code :=
  lexical ++ command

def entry : Code → Entry
  | .unexpectedCharacter =>
      { code := "VMLEX001"
        description := "'\x7bchar\x7d' can't start any token here."
        message := "unexpected character '\x7bchar\x7d'"
        suggestion :=
          some "Remove the character, or start a comment with `#` if this is meant as a note." }
  | .emptyIdentifier =>
      { code := "VMLEX002"
        description :=
          "A name was expected at this point, but no letters or underscores follow."
        message := "expected an identifier"
        suggestion := some "Write the directive name right after `%`, for example `%repeat`." }
  | .hexLiteral =>
      { code := "VMLEX003"
        description :=
          "Hex literals need between 1 and 16 hex digits after `0x` to fit in 64 bits."
        message := "invalid hexadecimal literal '0x\x7bdigits\x7d'"
        suggestion := some "Use 1 to 16 digits from 0-9 and a-f." }
  | .binaryLiteral =>
      { code := "VMLEX004"
        description := "Binary literals hold at most 64 digits after `0b`."
        message := "binary literal is longer than 64 bits"
        suggestion :=
          some "Drop leading zeros or split the value; at most 64 binary digits fit." }
  | .secondDecimalPoint =>
      { code := "VMLEX005"
        description := "A number can contain at most one decimal point."
        message := "unexpected second decimal point"
        suggestion := some "Remove the extra `.`." }
  | .floatLiteral =>
      { code := "VMLEX006"
        description := "This float literal couldn't be read."
        message := "invalid float literal"
        suggestion := none }
  | .unsignedLiteral =>
      { code := "VMLEX007"
        description := "Unsigned literals must have at least one digit and fit in 64 bits."
        message := "invalid unsigned integer literal"
        suggestion := some "Use a value between 0 and 18446744073709551615." }
  | .signedLiteral =>
      { code := "VMLEX008"
        description := "Signed literals must have at least one digit and fit in 64 bits."
        message := "invalid signed integer literal"
        suggestion :=
          some "Use a value between -9223372036854775807 and 9223372036854775807." }
  | .register =>
      { code := "VMLEX009"
        description :=
          "Registers are written `$r0` to `$r9`, or `$rsp`, `$rfp`, `$rfl`, `$rou`, `$rra`, `$rrb`."
        message := "invalid register '$\x7bname\x7d'"
        suggestion := some "Check the register name for typos." }
  | .registerAtEnd =>
      { code := "VMLEX010"
        description := "The file ends in the middle of a register name."
        message := "expected register, found end of file"
        suggestion := some "Finish the register name, for example `$r0`." }
  | .directive =>
      { code := "VMLEX011"
        description :=
          "Directives are %repeat, %end_repeat, %if, %else, %endif, %import and %const."
        message := "unknown directive '%\x7bname\x7d'"
        suggestion := some "Check the directive name for typos." }
  | .fileNotFound =>
      { code := "VMCLI001"
        description := "There's no file at this path."
        message := "file not found: \x7bpath\x7d"
        suggestion := some "Double-check the path and make sure the file exists." }
  | .unreadableFile =>
      { code := "VMCLI002"
        description := "The file exists but can't be opened."
        message := "cannot read file: \x7breason\x7d"
        suggestion := some "Check that you have read permission for this file." }
  | .unknownMode =>
      { code := "VMCLI003"
        description := "The default numeric mode decides how literals without a prefix are read."
        message := "unknown numeric mode \"\x7bmode\x7d\""
        suggestion :=
          some "Use `--numeric unsigned`, `--numeric signed` or `--numeric float`." }
  | .aborted =>
      { code := "VMCLI004"
        description := "Something unexpected went wrong while tokenizing."
        message := "tokenization aborted: \x7breason\x7d"
        suggestion := some "Check your source file, or report this if it seems like a bug." }

def text (c : Code) : String :=
  c.entry.code

/-- The code with this written form; case counts. -/
def ofText? (s : String) : Option Code :=
  all.find? fun c ↦ c.text = s

end Code

end AsmLexer.Diagnostic
