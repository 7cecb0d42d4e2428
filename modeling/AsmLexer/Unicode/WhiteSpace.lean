import AsmLexer.Unicode.CodeRange

/-!
# The class White_Space

The characters with the Unicode property White_Space, line breaks included.
-/

namespace AsmLexer.Unicode

def whiteSpaceRanges : List CodeRange :=
  [(0x9, 0xd), (0x20, 0x20), (0x85, 0x85), (0xa0, 0xa0), (0x1680, 0x1680), (0x2000, 0x200a),
   (0x2028, 0x2029), (0x202f, 0x202f), (0x205f, 0x205f), (0x3000, 0x3000)]

def isWhiteSpace (c : Char) : Bool :=
  CodeRange.covers whiteSpaceRanges c.toNat

end AsmLexer.Unicode
