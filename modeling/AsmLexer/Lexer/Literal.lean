import AsmLexer.Lexer.NumericMode
import AsmLexer.Lexer.Reading
import AsmLexer.Text.Digits

/-!
# Integer literals

`0x` and `0b` bring hexadecimal and binary digits, `0i` and `0u` a signed and an unsigned decimal
number, `0f` a float. A literal without such a mark is read as the numeric mode says. Values stay
within 64 bits; the magnitude of a signed literal stays within 63, whatever its sign.
-/

namespace AsmLexer

def unsignedMax : Nat := 18446744073709551615

def signedMax : Nat := 9223372036854775807

/-- The least value of a signed 64-bit word. -/
def signedMin : Int := -9223372036854775808

def maxBinaryDigits : Nat := 64

namespace Literal

/-- Decimal digits read one at a time: how many, and their value unless it passed the limit. -/
structure DecimalRun where
  count : Nat
  value? : Option Nat
deriving DecidableEq

/-- Read the decimal digits in front of a text after `count` digits of the value `value`, and stop
right after the one that takes the value past `limit`. -/
def readDigits (limit : Nat) : (count value : Nat) → List Char → DecimalRun
  | count, value, [] => ⟨count, some value⟩
  | count, value, c :: cs =>
      if c.isDigit then
        let next := value * 10 + Text.digitValue c
        if limit < next then ⟨count + 1, none⟩ else readDigits limit (count + 1) next cs
      else ⟨count, some value⟩

/-- The unsigned decimal literal in front of a text, after `lead` characters. -/
def readUnsigned (lead : Nat) (text : List Char) : Reading :=
  let run := readDigits unsignedMax 0 0 text
  match run.value? with
  | none => .over .unsignedLiteral lead run.count
  | some value =>
      if run.count = 0 then .over .unsignedLiteral lead 0
      else .token (.unsigned value) lead run.count

/-- The digits of a signed literal, read after `sign` characters of sign. -/
def readMagnitude (lead sign : Nat) (negative : Bool) (digits : List Char) : Reading :=
  let run := readDigits signedMax 0 0 digits
  match run.value? with
  | none => .over .signedLiteral lead (sign + run.count)
  | some value =>
      if run.count = 0 then .over .signedLiteral (lead + sign) 0
      else .token (.signed (if negative then -value else value)) lead (sign + run.count)

/-- The signed decimal literal in front of a text, after `lead` characters. -/
def readSigned (lead : Nat) : List Char → Reading
  | '-' :: digits => readMagnitude lead 1 true digits
  | digits => readMagnitude lead 0 false digits

def readHex (text : List Char) : Reading :=
  let digits := text.takeWhile Text.isHexDigit
  let value := Text.digitsValue 16 digits
  if digits = [] ∨ unsignedMax < value then .over .hexLiteral 2 digits.length
  else .token (.unsigned value) 2 digits.length

def readBinary (text : List Char) : Reading :=
  let digits := text.takeWhile Text.isBinaryDigit
  if digits = [] then .over .binaryLiteral 2 0
  else if maxBinaryDigits < digits.length then .over .binaryLiteral 2 (maxBinaryDigits + 1)
  else .token (.unsigned (Text.digitsValue 2 digits)) 2 digits.length

/-- A literal without a mark, with its first character `c`. -/
def readUnmarked (mode : NumericMode) (c : Char) (cs : List Char) : Reading :=
  match mode with
  | .unsigned => if c = '-' then .unexpected '-' else readUnsigned 0 (c :: cs)
  | .signed => readSigned 0 (c :: cs)
  | .float => .float 0

def readZero (mode : NumericMode) : List Char → Reading
  | 'x' :: cs => readHex cs
  | 'b' :: cs => readBinary cs
  | 'i' :: cs => readSigned 2 cs
  | 'u' :: cs => readUnsigned 2 cs
  | 'f' :: _ => .float 2
  | cs => readUnmarked mode '0' cs

end Literal

end AsmLexer
