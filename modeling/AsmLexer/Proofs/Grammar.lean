import AsmLexer.Lexer.Name
import AsmLexer.Proofs.CharClass
import AsmLexer.Proofs.Decimal

/-!
# The grammar of segments

A text is a row of segments, and a token covers its segment without the mark in front of it. Each
segment is told by its own characters and by what may come after it. Where no segment begins there
is a fault, which is told in the same way. `Reads` says what is to be reported in either case.
-/

namespace AsmLexer

open Text

/-- What a bare word stands for: an opcode if it is a mnemonic of the table, else a name. -/
def InstructionTable.meaning (table : InstructionTable) (word : List Char) : Token.Body :=
  match table.opcode? (String.ofList word) with
  | some opcode => .opcode opcode
  | none => .identifier

namespace Grammar

/-- The letters that turn a zero in front of them into a mark. -/
def markLetters : List Char :=
  ['x', 'b', 'i', 'u', 'f']

def Unmarked (text : List Char) : Prop :=
  ∀ c rest, text = '0' :: c :: rest → c ∉ markLetters

/-- What announces a number of some kind in front of `text`: the mark with the letter of that kind,
or nothing where the mode is of that kind. -/
inductive Mark (letter : Char) (kind mode : NumericMode) : (mark text : List Char) → Prop
  | letter (text : List Char) : Mark letter kind mode ['0', letter] text
  | mode {text : List Char} (hmode : mode = kind) (htext : Unmarked text) :
      Mark letter kind mode [] text

def sign (negative : Bool) : List Char :=
  if negative then ['-'] else []

def signedValue (negative : Bool) (magnitude : Nat) : Int :=
  if negative then -magnitude else magnitude

/-- A segment in front of `rest`: the characters `lead` are in no token, the token covers `word`,
and the last argument is what the token stands for, if there is one. -/
inductive Segment (words : List Char → Token.Body) (mode : NumericMode) :
    (lead word rest : List Char) → Option Token.Body → Prop
  | lineFeed (rest : List Char) : Segment words mode ['\n'] [] rest none
  | blank {c : Char} (rest : List Char) (hspace : Unicode.isWhiteSpace c = true)
      (hline : c ≠ '\n') : Segment words mode [c] [] rest none
  | comment {body rest : List Char} (hrun : MaximalRun (· ≠ '\n') body rest) :
      Segment words mode ('#' :: body) [] rest none
  | comma (rest : List Char) : Segment words mode [] [','] rest (some .comma)
  | colon (rest : List Char) : Segment words mode [] [':'] rest (some .colon)
  | directive {word rest : List Char} {d : Directive} (hrun : MaximalRun isNameChar word rest)
      (hd : d.spelling.toList = word) : Segment words mode ['%'] word rest (some (.directive d))
  | word {word rest : List Char} (hrun : MaximalRun isNameChar word rest) (hne : word ≠ []) :
      Segment words mode [] word rest (some (words word))
  | general {digit : Char} {rest : List Char} (hdigit : digit.isDigit = true)
      (hrest : NoneAhead isAlphanumeric rest) :
      Segment words mode ['$'] ['r', digit] rest (some (.register (6 + digitValue digit)))
  | named {first second : Char} {r : Register} (rest : List Char)
      (hr : Register.named? first second = some r) :
      Segment words mode ['$'] ['r', first, second] rest (some (.register r.ordinal))
  | hex {digits rest : List Char} (hrun : MaximalRun isHexDigit digits rest) (hne : digits ≠ [])
      (hle : digitsValue 16 digits ≤ unsignedMax) :
      Segment words mode ['0', 'x'] digits rest (some (.unsigned (digitsValue 16 digits)))
  | binary {digits rest : List Char} (hrun : MaximalRun isBinaryDigit digits rest)
      (hne : digits ≠ []) (hle : digits.length ≤ maxBinaryDigits) :
      Segment words mode ['0', 'b'] digits rest (some (.unsigned (digitsValue 2 digits)))
  | unsigned {mark digits rest : List Char} (hmark : Mark 'u' .unsigned mode mark (digits ++ rest))
      (hnumber : Literal.Decimal unsignedMax digits rest) :
      Segment words mode mark digits rest (some (.unsigned (digitsValue 10 digits)))
  | signed {mark digits rest : List Char} (negative : Bool)
      (hmark : Mark 'i' .signed mode mark (sign negative ++ digits ++ rest))
      (hnumber : Literal.Decimal signedMax digits rest) :
      Segment words mode mark (sign negative ++ digits) rest
        (some (.signed (signedValue negative (digitsValue 10 digits))))

/-! ## Faults -/

structure Unexpected (mode : NumericMode) (c : Char) : Prop where
  notWhiteSpace : Unicode.isWhiteSpace c = false
  notNameChar : isNameChar c = false
  notDigit : c.isDigit = false
  notMarker : c ∉ ['%', '#', ',', ':', '$']
  mode_of_minus : c = '-' → mode = .unsigned

/-- What may be left of a text whose register is cut off by the end. -/
def unfinishedRegisters : List (List Char) :=
  [[], ['r'], ['r', 'f'], ['r', 's'], ['r', 'o'], ['r', 'r']]

/-- Something is missing after `lead`, which shows when the characters `passed` have been seen. -/
inductive Missing : PointFault → (lead passed rest : List Char) → Prop
  | identifier {rest : List Char} (hrest : NoneAhead isNameChar rest) :
      Missing .emptyIdentifier ['%'] [] rest
  | register {passed : List Char} (hpassed : passed ∈ unfinishedRegisters) :
      Missing .registerAtEnd ['$'] passed []

/-- The characters `span` between `lead` and `rest` are at fault. -/
inductive Fault (mode : NumericMode) : SpanFault → (lead span rest : List Char) → Prop
  | directive {word rest : List Char} (hrun : MaximalRun isNameChar word rest) (hne : word ≠ [])
      (hword : ∀ d : Directive, d.spelling.toList ≠ word) : Fault mode .directive ['%'] word rest
  | register {name rest : List Char} (hrun : MaximalRun isAlphanumeric name rest)
      (hnamed : ∀ first second tail, name ++ rest = 'r' :: first :: second :: tail →
        Register.named? first second = none)
      (hgeneral : ∀ digit : Char, digit.isDigit = true → name ≠ ['r', digit])
      (hend : name ++ rest ∉ unfinishedRegisters) : Fault mode .register ['$'] name rest
  | hex {digits rest : List Char} (hrun : MaximalRun isHexDigit digits rest)
      (hdigits : digits = [] ∨ unsignedMax < digitsValue 16 digits) :
      Fault mode .hexLiteral ['0', 'x'] digits rest
  | noBinary {rest : List Char} (hrest : NoneAhead isBinaryDigit rest) :
      Fault mode .binaryLiteral ['0', 'b'] [] rest
  | longBinary {digits : List Char} (rest : List Char)
      (hdigits : ∀ c ∈ digits, isBinaryDigit c = true)
      (hlength : digits.length = maxBinaryDigits + 1) :
      Fault mode .binaryLiteral ['0', 'b'] digits rest
  | noUnsigned {rest : List Char} (hrest : NoneAhead Char.isDigit rest) :
      Fault mode .unsignedLiteral ['0', 'u'] [] rest
  | unsigned {mark digits rest : List Char} (hmark : Mark 'u' .unsigned mode mark (digits ++ rest))
      (hpast : Literal.Overflow unsignedMax digits) :
      Fault mode .unsignedLiteral mark digits rest
  | noSigned {mark rest : List Char} (negative : Bool)
      (hmark : Mark 'i' .signed mode mark (sign negative ++ rest))
      (hsign : mark ++ sign negative ≠ []) (hminus : negative = false → rest.head? ≠ some '-')
      (hrest : NoneAhead Char.isDigit rest) :
      Fault mode .signedLiteral (mark ++ sign negative) [] rest
  | signed {mark digits rest : List Char} (negative : Bool)
      (hmark : Mark 'i' .signed mode mark (sign negative ++ digits ++ rest))
      (hpast : Literal.Overflow signedMax digits) :
      Fault mode .signedLiteral mark (sign negative ++ digits) rest

/-- A float literal comes after `lead`. -/
structure FloatAhead (mode : NumericMode) (lead rest : List Char) : Prop where
  mark : Mark 'f' .float mode lead rest
  opens : lead = [] → ∃ c ∈ rest.head?, OpensNumber c

/-! ## Readings -/

def segmentReading (lead word : List Char) : Option Token.Body → Reading
  | some body => .token body lead.length word.length
  | none => if lead = ['\n'] then .lineFeed else .blank lead.length

inductive Reads (words : List Char → Token.Body) (mode : NumericMode) :
    (text : List Char) → Reading → Prop
  | segment {lead word rest : List Char} {found : Option Token.Body}
      (h : Segment words mode lead word rest found) :
      Reads words mode (lead ++ word ++ rest) (segmentReading lead word found)
  | unexpected {c : Char} (rest : List Char) (h : Unexpected mode c) :
      Reads words mode (c :: rest) (.unexpected c)
  | missing {fault : PointFault} {lead passed rest : List Char}
      (h : Missing fault lead passed rest) :
      Reads words mode (lead ++ passed ++ rest)
        (.atPoint fault lead.length (lead.length + passed.length))
  | fault {fault : SpanFault} {lead span rest : List Char} (h : Fault mode fault lead span rest) :
      Reads words mode (lead ++ span ++ rest) (.over fault lead.length span.length)
  | float {lead rest : List Char} (h : FloatAhead mode lead rest) :
      Reads words mode (lead ++ rest) (.float lead.length)

end Grammar

end AsmLexer
