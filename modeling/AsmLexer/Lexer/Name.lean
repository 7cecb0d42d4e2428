import AsmLexer.Lexer.CharClass
import AsmLexer.Lexer.Reading
import AsmLexer.Machine.InstructionTable
import AsmLexer.Machine.Register

/-!
# Names

Directives after `%`, registers after `$`, and the bare words, which are mnemonics or identifiers.
-/

namespace AsmLexer.Name

def readDirective (text : List Char) : Reading :=
  let word := text.takeWhile isNameChar
  if word = [] then .atPoint .emptyIdentifier 1 1
  else
    match Directive.ofSpelling? (String.ofList word) with
    | some d => .token (.directive d) 1 word.length
    | none => .over .directive 1 word.length

/-- The word in front of a text. No mnemonic holds an underscore, so a word with one is not looked
up. -/
def readWord (table : InstructionTable) (text : List Char) : Reading :=
  let word := text.takeWhile isNameChar
  if '_' ∈ word then .token .identifier 0 word.length
  else
    match table.opcode? (String.ofList word) with
    | some opcode => .token (.opcode opcode) 0 word.length
    | none => .token .identifier 0 word.length

/-- What follows a `$` and is no register: the error covers all letters and numerals there. -/
def invalidRegister (text : List Char) : Reading :=
  .over .register 1 (text.takeWhile isAlphanumeric).length

/-- The register after a `$`. The digit of a general register must not be followed by a letter or a
numeral; the letters of a named one may be followed by anything. -/
def readRegister (text : List Char) : Reading :=
  match text with
  | [] => .atPoint .registerAtEnd 1 1
  | 'r' :: [] => .atPoint .registerAtEnd 1 2
  | 'r' :: first :: rest =>
      if first.isDigit then
        if rest.takeWhile isAlphanumeric = [] then
          .token (.register (Register.ofDigit first).ordinal) 1 2
        else invalidRegister text
      else
        match Register.group? first, rest with
        | none, _ => invalidRegister text
        | some _, [] => .atPoint .registerAtEnd 1 3
        | some group, second :: _ =>
            match group.lookup second with
            | some register => .token (.register register.ordinal) 1 3
            | none => invalidRegister text
  | _ => invalidRegister text

end AsmLexer.Name
