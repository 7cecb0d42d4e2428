import AsmLexer.Command.Flag
import AsmLexer.Command.Tokenize
import AsmLexer.Value.Fields

/-!
# The command line

The words after the program's name are a command and, behind it, its flags and its input in any
order. A question for the version or the usage is answered before the rest is looked at, and then
nothing else is done; but a command without its input, or with a flag that it does not know, is
still refused.
-/

namespace AsmLexer.Command

def versionLine : String := "vmasm v0.1.0"

def usage : List String :=
  [versionLine,
   "",
   "Usage: vmasm tokenize <input> [--numeric unsigned|signed|float] [--json]",
   "",
   "Run \"vmasm help tokenize\" for details."]

/-- The flag that is unknown to every command and yet is answered with the usage. -/
def findingFlag : Flag :=
  .unknown "finding:command"

inductive Refusal
  | missingInput
  | emptyInput
  | unknownFlag (name : String)
  | emptyMode
  | unknownCommand (name : String)
deriving DecidableEq

namespace Refusal

/-- A flag as it is written: one dash before a single character of the first plane, else two. -/
def flagText (name : String) : String :=
  match name.toList with
  | [c] => (if c.toNat < 0x10000 then "-" else "--") ++ name
  | _ => "--" ++ name

def message : Refusal → String
  | .missingInput => "Missing required argument \"input\""
  | .emptyInput => "Missing value for argument \"input\""
  | .unknownFlag name =>
      "Unknown flag \"" ++ flagText name ++
        "\". The mentioned flag is not accepted by the command"
  | .emptyMode => "Missing value for option \"numeric\""
  | .unknownCommand name => "Command \"" ++ name ++ "\" is not defined"

end Refusal

/-- The words of a command line, sorted into inputs and settings of flags. -/
structure Arguments where
  inputs : List String := []
  settings : List Setting := []
deriving DecidableEq

namespace Arguments

def addInputs (a : Arguments) (words : List String) : Arguments :=
  { a with inputs := a.inputs ++ words }

def addSettings (a : Arguments) (settings : List Setting) : Arguments :=
  { a with settings := a.settings ++ settings }

/-- Sort the words of a command line, after those already in `a`. -/
def sort (a : Arguments) : List String → Arguments
  | [] => a
  | [word] =>
      match Word.ofString word with
      | .plain => a.addInputs [word]
      | .flags _ settings => a.addSettings settings
      | .endOfFlags => a
  | word :: next :: rest =>
      match Word.ofString word with
      | .plain => sort (a.addInputs [word]) (next :: rest)
      | .flags spelling settings =>
          match withNext? spelling settings next with
          | some completed => sort (a.addSettings completed) rest
          | none => sort (a.addSettings settings) (next :: rest)
      | .endOfFlags => a.addInputs (next :: rest)

def givens (a : Arguments) (flag : Flag) : List Given :=
  (a.settings.filter (·.flag = flag)).map (·.given)

def mentions (a : Arguments) (flag : Flag) : Bool :=
  !(a.givens flag).isEmpty

/-- Whether JSON is asked for: the last setting decides. -/
def json (a : Arguments) : Bool :=
  match (a.givens .json).getLast? with
  | none | some .negation => false
  | some .nothing => true
  | some (.text value) => value == "true"

/-- The text that stands for a setting of the numeric mode; without a value it is the usual mode. -/
def modeText : Given → String
  | .nothing => "unsigned"
  | .negation => "false"
  | .text value => value

/-- The numeric mode to use. Several modes are taken together, which names none. -/
def mode (a : Arguments) : String :=
  match a.givens .numeric with
  | [] => "unsigned"
  | givens => ",".intercalate (givens.map modeText)

def hasEmptyMode (a : Arguments) : Bool :=
  a.givens .numeric = [.text ""] ∨ a.givens .numeric = [.negation]

/-- The names of the unknown flags, in the order of the fields of a record. -/
def unknown (a : Arguments) : List String :=
  let names := a.settings.filterMap fun setting ↦
    match setting.flag with
    | .unknown name => some name
    | _ => none
  (Value.enumerate (names.map (·, Value.null))).map (·.1)

def answer? (a : Arguments) : Option (List String) :=
  if a.mentions .version then some [versionLine]
  else if a.mentions .help || a.mentions findingFlag then some usage
  else none

/-- Why the command cannot be carried out: its input is looked at first, and then its flags. -/
def refusal? (a : Arguments) : Option Refusal :=
  match a.inputs, a.unknown with
  | [], _ => some .missingInput
  | input :: _, names =>
      if input = "" then some .emptyInput
      else
        match names with
        | name :: _ => some (.unknownFlag name)
        | [] => if a.hasEmptyMode then some .emptyMode else none

end Arguments

inductive Plan
  | stop (output : Output)
  | tokenize (request : Request)
deriving DecidableEq

def refusalLine (refusal : Refusal) : String :=
  "  ERROR   " ++ refusal.message

/-- Answer questions, refuse what cannot be done, and otherwise ask for the tokens. -/
def planTokenize (a : Arguments) : Plan :=
  let answers := (a.answer?.getD []).map (Channel.log, ·)
  match a.refusal?, a.inputs with
  | some refusal, _ =>
      .stop { exitCode := 1, printed := answers ++ [(.error, refusalLine refusal)] }
  | none, input :: _ =>
      if a.answer?.isSome then .stop { printed := answers }
      else .tokenize { input, numeric := a.mode, json := a.json }
  | none, [] => .stop { printed := answers }

/-- The first word without a dash in front is the command. Flags before it are not its own and say
nothing; without any command they may still ask a question. -/
def plan (words : List String) : Plan :=
  match words.dropWhile (·.startsWith "-") with
  | "tokenize" :: rest => planTokenize (Arguments.sort {} rest)
  | word :: _ => .stop (.failed (refusalLine (.unknownCommand word)))
  | [] => .stop (.logged ((Arguments.sort {} words).answer?.getD usage))

def run (words : List String) (read : String → Except Failure String) : Output :=
  match plan words with
  | .stop output => output
  | .tokenize request => tokenizeInput request (read request.input)

end AsmLexer.Command
