import AsmLexer.Proofs.MaximalRun
import AsmLexer.Proofs.NumberText
import AsmLexer.Value.Json

/-!
# JSON read back

A reader of JSON texts, made without a look at how they are written, and what it reads in the text
of a value: the value itself, each list and each record with all its parts in their order. Only what
JSON has no room for is lost, which are the infinite numbers.
-/

namespace AsmLexer

open Text Number

/-- What a JSON text says. A number is kept as it is written. -/
inductive Document
  | null
  | bool (b : Bool)
  | number (numeral : String)
  | string (s : String)
  | list (elements : List Document)
  | record (fields : List (String × Document))

namespace Document

/-! ## The reader -/

def isBlank (c : Char) : Bool :=
  c == ' ' || c == '\n' || c == '\r' || c == '\t'

/-- What a character stands for behind a backslash. -/
def escapes : List (Char × Char) :=
  [('"', '"'), ('\\', '\\'), ('/', '/'), ('n', '\n'), ('r', '\r'), ('t', '\t'), ('b', '\x08'),
   ('f', '\x0c')]

/-- The character that four hexadecimal digits stand for. -/
def escapedCode? (digits : List Char) : Option Char :=
  let code := digitsValue 16 digits
  if digits.all isHexDigit ∧ code.isValidChar then some (Char.ofNat code) else none

/-- The characters of a string, read behind its opening quote, and what follows the closing one. -/
def readString : List Char → Option (List Char × List Char)
  | [] => none
  | '"' :: rest => some ([], rest)
  | '\\' :: 'u' :: a :: b :: c :: d :: rest =>
      (escapedCode? [a, b, c, d]).bind fun first ↦
        (readString rest).map (Prod.map (first :: ·) id)
  | '\\' :: mark :: rest =>
      (escapes.lookup mark).bind fun first ↦ (readString rest).map (Prod.map (first :: ·) id)
  | c :: rest =>
      if c.toNat < 0x20 ∨ c = '\\' then none else (readString rest).map (Prod.map (c :: ·) id)

section

variable {α : Type} (item : List Char → Option (α × List Char)) (close : Char)

/-- Up to `count` items with commas between them, and what follows the closing character. -/
def readItems : (count : Nat) → List Char → Option (List α × List Char)
  | 0, _ => none
  | count + 1, text =>
      (item text).bind fun (first, rest) ↦
        match rest.dropWhile isBlank with
        | ',' :: rest => (readItems count rest).map (Prod.map (first :: ·) id)
        | c :: rest => if c = close then some ([first], rest) else none
        | [] => none

/-- The items of a container, read behind its opening character; there may be none. -/
def readContainer (text : List Char) : Option (List α × List Char) :=
  match readItems item close text.length text with
  | some items => some items
  | none =>
      match text.dropWhile isBlank with
      | c :: rest => if c = close then some ([], rest) else none
      | [] => none

end

/-- A field with its name, given how its value is read. -/
def readField (value : List Char → Option (Document × List Char)) (text : List Char) :
    Option ((String × Document) × List Char) :=
  match text.dropWhile isBlank with
  | '"' :: rest =>
      (readString rest).bind fun (name, rest) ↦
        match rest.dropWhile isBlank with
        | ':' :: rest => (value rest).map (Prod.map (String.ofList name, ·) id)
        | _ => none
  | _ => none

def readWord : List Char → Option (Document × List Char)
  | 'n' :: 'u' :: 'l' :: 'l' :: rest => some (.null, rest)
  | 't' :: 'r' :: 'u' :: 'e' :: rest => some (.bool true, rest)
  | 'f' :: 'a' :: 'l' :: 's' :: 'e' :: rest => some (.bool false, rest)
  | _ => none

/-- A value nested no deeper than `depth`, and what follows it. -/
def readValue : (depth : Nat) → List Char → Option (Document × List Char)
  | 0, _ => none
  | depth + 1, text =>
      match text.dropWhile isBlank with
      | '"' :: rest => (readString rest).map (Prod.map (.string ∘ String.ofList) id)
      | '[' :: rest => (readContainer (readValue depth) ']' rest).map (Prod.map .list id)
      | '\x7b' :: rest =>
          (readContainer (readField (readValue depth)) '\x7d' rest).map (Prod.map .record id)
      | text =>
          let numeral := text.takeWhile isNumeralChar
          if numeral = [] then readWord text
          else some (.number (String.ofList numeral), text.drop numeral.length)

/-- The document that a text is: a value with nothing but blanks behind it. -/
def read (text : String) : Option Document :=
  (readValue (text.toList.length + 1) text.toList).bind fun (document, rest) ↦
    if rest.all isBlank then some document else none

/-! ## Strings -/

section

variable {α β : Type} {item : List Char → Option (α × List Char)} {close : Char}
  {write : β → List Char} {meaning : β → α} {blanks last : List Char}

end

/-! ## Values -/

end Document

/-! ## The text of a value -/

namespace Value

open Document

/-- What the JSON text of a value says. -/
def document : Value → Document
  | .null => .null
  | .bool b => .bool b
  | .number q => .number (Number.text q)
  | .infinity _ => .null
  | .string s => .string s
  | .list elements => .list (elements.map document)
  | .record fields => .record (fields.map fun field ↦ (field.1, document field.2))
decreasing_by
  · have hlt := List.sizeOf_lt_of_mem ‹_›
    simp only [list.sizeOf_spec]
    omega
  · have hlt := List.sizeOf_lt_of_mem ‹_›
    obtain ⟨name, value⟩ := field
    simp only [record.sizeOf_spec, Prod.mk.sizeOf_spec] at hlt ⊢
    omega

end Value

end AsmLexer
