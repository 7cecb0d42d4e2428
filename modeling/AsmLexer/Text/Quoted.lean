/-!
# Quoted text

A text as it is shown inside a message: between quotes that it does not hold itself if there are
such, on one line, with every control written out, and cut off when it is long.
-/

namespace AsmLexer.Text

/-- Whether a dollar sign stands before an opening brace somewhere in a text. -/
def opensHole : List Char → Bool
  | '$' :: '\x7b' :: _ => true
  | _ :: rest => opensHole rest
  | [] => false

/-- The quote to put around a text: an apostrophe, a double quote or a grave accent, the first that
needs no escape. The grave accent is passed over where a text opens a hole for a value. -/
def quoteFor (text : List Char) : Char :=
  if text.contains '\x27' then
    if !text.contains '"' then '"'
    else if !text.contains '\x60' && !opensHole text then '\x60'
    else '\x27'
  else '\x27'

def isControl (c : Char) : Bool :=
  c.toNat < 0x20 || (0x7f ≤ c.toNat && c.toNat < 0xa0)

/-- A control by its number, in two hexadecimal digits. -/
def controlText (c : Char) : List Char :=
  ['\\', 'x', (Nat.digitChar (c.toNat / 16)).toUpper, (Nat.digitChar (c.toNat % 16)).toUpper]

/-- A character between quotes. -/
def escapeWithin (quote c : Char) : List Char :=
  if c = '\\' then ['\\', '\\']
  else if c = '\n' then ['\\', 'n']
  else if c = '\r' then ['\\', 'r']
  else if c = '\t' then ['\\', 't']
  else if c = '\x08' then ['\\', 'b']
  else if c = '\x0c' then ['\\', 'f']
  else if c = quote then ['\\', c]
  else if isControl c then controlText c
  else [c]

def quoted (text : List Char) : List Char :=
  let quote := quoteFor text
  quote :: (text.flatMap (escapeWithin quote) ++ [quote])

/-- The most characters of a quoted text that a message shows. -/
def shownLimit : Nat := 128

/-- A text quoted for a message. -/
def shown (text : String) : String :=
  let whole := quoted text.toList
  if shownLimit < whole.length then String.ofList (whole.take shownLimit) ++ "..."
  else String.ofList whole

end AsmLexer.Text
