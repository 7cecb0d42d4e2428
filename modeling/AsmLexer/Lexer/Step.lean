import AsmLexer.Lexer.Literal
import AsmLexer.Lexer.Name

/-!
# One step

What the first character of the remaining text opens is read. Main statement: a step after which
the lexer goes on has read at least one character.
-/

namespace AsmLexer

/-- Read what stands in front of the text `c :: cs`. -/
def Reading.next (table : InstructionTable) (mode : NumericMode) (c : Char) (cs : List Char) :
    Reading :=
  match Opening.of c with
  | .lineFeed => .lineFeed
  | .directive => Name.readDirective cs
  | .comment => .blank (1 + (cs.takeWhile (· ≠ '\n')).length)
  | .comma => .token .comma 0 1
  | .colon => .token .colon 0 1
  | .register => Name.readRegister cs
  | .zero => Literal.readZero mode cs
  | .blank => .blank 1
  | .word => Name.readWord table (c :: cs)
  | .number => Literal.readUnmarked mode c cs
  | .nothing => .unexpected c

namespace Reading

/-- A reading after which the lexer goes on has read something. -/
def Advances (r : Reading) : Prop :=
  r.continues = true → 0 < r.consumed

theorem advances_blank {length : Nat} (h : 0 < length) : (blank length).Advances :=
  fun _ ↦ h

theorem advances_token {body : Token.Body} {lead length : Nat} (h : 0 < lead + length) :
    (token body lead length).Advances :=
  fun _ ↦ h

theorem advances_of_continues_eq_false {r : Reading} (h : r.continues = false) : r.Advances := by
  simp [Advances, h]

theorem advances_readMagnitude (lead sign : Nat) (negative : Bool) (digits : List Char) :
    (Literal.readMagnitude lead sign negative digits).Advances := by
  unfold Literal.readMagnitude
  dsimp only
  split
  · exact advances_of_continues_eq_false rfl
  · split
    · exact advances_of_continues_eq_false rfl
    · exact advances_token (by omega)

theorem advances_readSigned (lead : Nat) (text : List Char) :
    (Literal.readSigned lead text).Advances := by
  unfold Literal.readSigned
  split <;> apply advances_readMagnitude

theorem advances_readUnsigned (lead : Nat) (text : List Char) :
    (Literal.readUnsigned lead text).Advances := by
  unfold Literal.readUnsigned
  dsimp only
  split
  · exact advances_of_continues_eq_false rfl
  · split
    · exact advances_of_continues_eq_false rfl
    · exact advances_token (by omega)

theorem advances_readUnmarked (mode : NumericMode) (c : Char) (cs : List Char) :
    (Literal.readUnmarked mode c cs).Advances := by
  cases mode with
  | unsigned =>
      unfold Literal.readUnmarked
      dsimp only
      split
      · exact advances_of_continues_eq_false rfl
      · apply advances_readUnsigned
  | signed => apply advances_readSigned
  | float => exact advances_of_continues_eq_false rfl

theorem advances_readHex (text : List Char) : (Literal.readHex text).Advances := by
  unfold Literal.readHex
  dsimp only
  split
  · exact advances_of_continues_eq_false rfl
  · exact advances_token (by omega)

theorem advances_readBinary (text : List Char) : (Literal.readBinary text).Advances := by
  unfold Literal.readBinary
  dsimp only
  split
  · exact advances_of_continues_eq_false rfl
  · split
    · exact advances_of_continues_eq_false rfl
    · exact advances_token (by omega)

theorem advances_readZero (mode : NumericMode) (cs : List Char) :
    (Literal.readZero mode cs).Advances := by
  unfold Literal.readZero
  split
  · apply advances_readHex
  · apply advances_readBinary
  · apply advances_readSigned
  · apply advances_readUnsigned
  · exact advances_of_continues_eq_false rfl
  · apply advances_readUnmarked

theorem advances_readDirective (cs : List Char) : (Name.readDirective cs).Advances := by
  unfold Name.readDirective
  dsimp only
  split
  · exact advances_of_continues_eq_false rfl
  · split
    · exact advances_token (by omega)
    · exact advances_of_continues_eq_false rfl

theorem advances_readRegister (cs : List Char) : (Name.readRegister cs).Advances := by
  unfold Name.readRegister Name.invalidRegister
  repeat' split
  all_goals simp [Advances, continues, consumed]

theorem advances_readWord (table : InstructionTable) {c : Char} (cs : List Char)
    (hc : isNameChar c = true) : (Name.readWord table (c :: cs)).Advances := by
  have hword : 0 < 0 + ((c :: cs).takeWhile isNameChar).length := by
    simp [hc]
  unfold Name.readWord
  dsimp only
  split
  · exact advances_token hword
  · split <;> exact advances_token hword

theorem advances_next (table : InstructionTable) (mode : NumericMode) (c : Char)
    (cs : List Char) : (next table mode c cs).Advances := by
  unfold next
  cases hc : Opening.of c with
  | lineFeed => exact fun _ ↦ Nat.one_pos
  | directive => exact advances_readDirective cs
  | comment => exact advances_blank (by omega)
  | comma => exact advances_token (by omega)
  | colon => exact advances_token (by omega)
  | register => exact advances_readRegister cs
  | zero => exact advances_readZero mode cs
  | blank => exact advances_blank (by omega)
  | word => exact advances_readWord table cs (Opening.isNameChar_of_of_eq_word hc)
  | number => exact advances_readUnmarked mode c cs
  | nothing => exact advances_of_continues_eq_false rfl

end Reading

end AsmLexer
