/-!
# Flags

How the words of a command line spell flags. A long flag is two dashes and a name, and its value may
follow an equals sign in the same word; one dash opens a group of letters, each of which is a flag.
A negative number, a single dash, and three or more dashes alone are words like any other. A flag
whose word holds no value for it may take the next word.
-/

namespace AsmLexer.Command

/-- The flags of the command, and the names that belong to none of them. -/
inductive Flag
  | numeric
  | json
  | version
  | help
  | unknown (name : String)
deriving DecidableEq

namespace Flag

/-- The flag of a name, which is written out or is its letter. -/
def ofName : String → Flag
  | "numeric" | "n" => .numeric
  | "json" => .json
  | "version" | "v" => .version
  | "help" | "h" => .help
  | name => .unknown name

/-- Whether the flag is on or off; any other flag has a text as its value. -/
def isSwitch : Flag → Bool
  | .json | .version | .help => true
  | .numeric | .unknown _ => false

end Flag

inductive Given
  | nothing
  | negation
  | text (value : String)
deriving DecidableEq

structure Setting where
  flag : Flag
  given : Given := .nothing
deriving DecidableEq

/-! ## Numbers inside words -/

def afterDigits? (text : List Char) : Option (List Char) :=
  if (text.takeWhile Char.isDigit).isEmpty then none else some (text.dropWhile Char.isDigit)

def dropPlaces : List Char → List Char
  | '.' :: text => (afterDigits? text).getD ('.' :: text)
  | text => text

def dropExponent : List Char → List Char
  | 'e' :: '-' :: text => (afterDigits? text).getD ('e' :: '-' :: text)
  | 'e' :: text => (afterDigits? text).getD ('e' :: text)
  | text => text

def isNumeral (text : List Char) : Bool :=
  (afterDigits? text).any fun rest ↦ (dropExponent (dropPlaces rest)).isEmpty

/-- Whether a text is a dash and a number without an exponent; the digits before a point may be
missing. -/
def isNegative : List Char → Bool
  | '-' :: number =>
      !number.isEmpty && (dropPlaces (number.dropWhile Char.isDigit)).isEmpty
  | _ => false

/-! ## Long flags -/

/-- A text without the quotes around it; both ends must have the same one. -/
def unquoted : List Char → List Char
  | [] => []
  | quote :: text =>
      if (quote = '"' ∨ quote = '\x27') ∧ text.getLast? = some quote then text.dropLast
      else quote :: text

def assignment? (text : List Char) : Option (List Char × List Char) :=
  match text.dropWhile (· != '=') with
  | [] => none
  | _ :: value => some (text.takeWhile (· != '='), value)

def isLineEnd (c : Char) : Bool :=
  c == '\n' || c == '\r' || c == '\u2028' || c == '\u2029'

/-- The line in which the name of a flag has to stand. -/
def firstLine (text : List Char) : List Char :=
  text.takeWhile (!isLineEnd ·)

/-- The setting that is written after two dashes; the word `no` before the name negates it. What is
behind the line of the name is no part of it. If a value has no name, the second dash is the name of
the setting. -/
def longSetting (text : List Char) : Setting :=
  let line := firstLine text
  match if line.tail.contains '=' then assignment? text else none with
  | some (name, value) =>
      ⟨.ofName (if name.isEmpty then "-" else String.ofList name),
        .text (String.ofList (unquoted value))⟩
  | none =>
      match line with
      | 'n' :: 'o' :: '-' :: c :: name => ⟨.ofName (String.ofList (c :: name)), .negation⟩
      | _ => ⟨.ofName (String.ofList line), .nothing⟩

/-! ## Letters -/

/-- Whether a letter of a group takes the rest of the group, which begins with `next`, as its value:
the rest is a number after a letter, a dash alone, or a sign with more behind it. -/
def takesRest (c next : Char) (rest : List Char) : Bool :=
  (c.isAlpha && isNumeral (next :: rest)) ||
    (if rest.isEmpty then next == '-' else !(next.isAlphanum || next == '_'))

/-- The settings of a group of letters. An equals sign before a value is not part of it. -/
def letterSettings : List Char → List Setting
  | [] => []
  | [c] => [⟨.ofName c.toString, .nothing⟩]
  | c :: next :: rest =>
      if takesRest c next rest then
        [⟨.ofName c.toString, .text (String.ofList (if next = '=' then rest else next :: rest))⟩]
      else ⟨.ofName c.toString, .nothing⟩ :: letterSettings (next :: rest)

/-- The settings of letters with a point after the first, which are one name. No such name is known,
and a value without a name sets nothing. -/
def pointedSettings? (text : List Char) : Option (List Setting) :=
  let line := firstLine text
  match line with
  | _ :: '.' :: _ :: rest =>
      if rest.contains '=' then
        match assignment? text with
        | some (c :: name, value) =>
            some [⟨.unknown (String.ofList (c :: name)), .text (String.ofList value)⟩]
        | _ => some []
      else some [⟨.unknown (String.ofList line), .nothing⟩]
  | _ => none

/-! ## Words -/

inductive Spelling
  | long
  | letters
  /-- Letters with a point after the first, which are one name. -/
  | pointed
deriving DecidableEq

inductive Word
  | plain
  | flags (spelling : Spelling) (settings : List Setting)
  /-- Two dashes alone, after which every word is plain. -/
  | endOfFlags
deriving DecidableEq

namespace Word

/-- The word of two dashes and `text`. A name cannot begin with the end of a line, and a third dash
needs a name somewhere behind it. -/
def ofLong (text : List Char) : Word :=
  let name := text.dropWhile (· == '-')
  if text.isEmpty then .endOfFlags
  else if text.head? = some '-' ∧ (name.isEmpty ∨ name.head? = some '=') then .plain
  else if (firstLine text).isEmpty then .plain
  else .flags .long [longSetting text]

/-- The word of one dash and `text`, which begins with no dash. -/
def ofLetters (text : List Char) : Word :=
  if text.isEmpty || isNegative ('-' :: text) then .plain
  else
    match pointedSettings? text with
    | some settings => .flags .pointed settings
    | none => .flags .letters (letterSettings text)

def ofString (word : String) : Word :=
  match word.toList with
  | '-' :: '-' :: text => ofLong text
  | '-' :: text => ofLetters text
  | _ => .plain

end Word

/-! ## Values in the next word -/

/-- Whether a word opens like a flag: one or two dashes and anything that is no dash. -/
def opensFlag : List Char → Bool
  | '-' :: '-' :: c :: _ => c != '-'
  | '-' :: c :: _ => c != '-'
  | _ => false

namespace Flag

/-- Whether the word after a flag is its value. A switch takes only a truth value. Of the words that
begin with a dash, a long flag takes the negative numbers, and a letter those that do not open like
a flag as well. -/
def takesNext (flag : Flag) (spelling : Spelling) (next : String) : Bool :=
  if flag.isSwitch then next == "true" || next == "false"
  else
    let opensWithDash := next.toList.head? == some '-'
    match spelling with
    | .long => !opensWithDash || isNegative next.toList
    | .letters => !opensFlag next.toList || isNegative next.toList
    | .pointed => !opensWithDash

end Flag

/-- The settings of a word together with the next word, if that is the value of the last one. -/
def withNext? (spelling : Spelling) (settings : List Setting) (next : String) :
    Option (List Setting) :=
  match settings.getLast? with
  | some ⟨flag, .nothing⟩ =>
      if flag.takesNext spelling next then some (settings.dropLast ++ [⟨flag, .text next⟩])
      else none
  | _ => none

end AsmLexer.Command
