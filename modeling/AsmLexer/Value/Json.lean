import AsmLexer.Value

/-!
# JSON text

A value as indented JSON: one element or field a line, two more spaces at each level, nothing
between the brackets of an empty container.
-/

namespace AsmLexer.Value

/-- Two lowercase hexadecimal digits. -/
def hexByte (n : Nat) : List Char :=
  [Nat.digitChar (n / 16), Nat.digitChar (n % 16)]

/-- A character inside a JSON string: the quote, the backslash and the controls are escaped. -/
def escape (c : Char) : List Char :=
  if c = '"' then ['\\', '"']
  else if c = '\\' then ['\\', '\\']
  else if c = '\n' then ['\\', 'n']
  else if c = '\r' then ['\\', 'r']
  else if c = '\t' then ['\\', 't']
  else if c = '\x08' then ['\\', 'b']
  else if c = '\x0c' then ['\\', 'f']
  else if c.toNat < 0x20 then '\\' :: 'u' :: '0' :: '0' :: hexByte c.toNat
  else [c]

def quote (s : String) : String :=
  String.ofList ('"' :: (s.toList.flatMap escape ++ ['"']))

/-- The break before a line at a level of indentation. -/
def lineBreak (level : Nat) : String :=
  String.ofList ('\n' :: List.replicate (2 * level) ' ')

/-- The items of a container between its brackets. -/
def bracket (left right : String) (level : Nat) (items : List String) : String :=
  if items.isEmpty then left ++ right
  else
    left ++ lineBreak (level + 1) ++ ("," ++ lineBreak (level + 1)).intercalate items ++
      lineBreak level ++ right

mutual

def json (level : Nat) : Value → String
  | .null => "null"
  | .bool true => "true"
  | .bool false => "false"
  | .number q => Number.text q
  | .infinity _ => "null"
  | .string s => quote s
  | .list elements => bracket "[" "]" level (jsonElements (level + 1) elements)
  | .record fields => bracket "\x7b" "\x7d" level (jsonFields (level + 1) fields)

def jsonElements (level : Nat) : List Value → List String
  | [] => []
  | value :: rest => json level value :: jsonElements level rest

def jsonFields (level : Nat) : List (String × Value) → List String
  | [] => []
  | (name, value) :: rest =>
      (quote name ++ ": " ++ json level value) :: jsonFields level rest

end

end AsmLexer.Value
