import AsmLexer.Proofs.ErrorReport
import AsmLexer.Proofs.Messages
import AsmLexer.Proofs.Stops

/-!
# Messages that quote the source

Some messages show the faulty piece of the source between quotation marks. The template writes the
mark that the error leaves out, and the rest is put in as it stands in the source. So the quotation
is what the step that fails had in front of it, from its first character to the end of the error.
-/

namespace AsmLexer

open Grammar Position

namespace Template

/-- Every slot of the template has an argument. -/
def Filled (template : String) (args : List (String × Argument)) : Prop :=
  ∀ name, Piece.slot name ∈ pieces template.toList →
    (args.lookup (String.ofList name)).isSome = true

theorem filled_of_hasSlot {template front name back : String}
    (h : HasSlot template front name back) (argument : Argument) :
    Filled template [(name, argument)] := by
  intro other hmem
  rw [pieces_of_hasSlot h] at hmem
  have hother : other = name.toList := by simpa using hmem
  rw [hother, String.ofList_toList]
  simp

end Template

namespace Diagnostic

open Template

/-- The codes whose messages quote the source. -/
def Code.quoting : List Code :=
  [.unexpectedCharacter, .hexLiteral, .register, .directive]

/-- What stands between the first and the last quotation mark of a message. -/
def Quotes (message quoted : String) : Prop :=
  ∃ front back, message = front ++ "'" ++ quoted ++ "'" ++ back ∧
    '\x27' ∉ front.toList ∧ '\x27' ∉ back.toList

section

variable {mode : NumericMode} {file : Handle} {source : SourceFile} {e : LexError}
  {front rear lead span rest : List Char} {fault : SpanFault} {range : Range}

theorem quotes_of_hasSlot {label name : String} {mark chars : List Char}
    (hslot : HasSlot (codeOf e).entry.message (label ++ "'" ++ String.ofList mark) name "'")
    (hlabel : '\x27' ∉ label.toList)
    (hargs : argumentsOf source e = [(name, .text (String.ofList chars))]) :
    Quotes (diagnose e source).message (String.ofList (mark ++ chars)) ∧
      Filled (diagnose e source).entry.message (diagnose e source).args := by
  rw [diagnose, hargs]
  refine ⟨⟨label, "", ?_, hlabel, List.not_mem_nil⟩, filled_of_hasSlot hslot _⟩
  rw [interpolate_of_hasSlot hslot, Argument.toText, String.ofList_append, String.append_empty]
  simp only [String.append_assoc]

theorem quotes_unexpected (c : Char) (position : Position) :
    Quotes (diagnose (.unexpected (String.singleton c) position) source).message
        (String.ofList [c]) ∧
      Filled (diagnose (.unexpected (String.singleton c) position) source).entry.message
        (diagnose (.unexpected (String.singleton c) position) source).args := by
  have hslot : HasSlot Code.unexpectedCharacter.entry.message
      ("unexpected character " ++ "'" ++ String.ofList []) "char" "'" := by
    decide
  exact @quotes_of_hasSlot source (.unexpected (String.singleton c) position) _ _ [] [c] hslot
    (by decide) rfl

/-- The template writes the mark that the error leaves out. -/
theorem quotes_fault (h : Fault mode fault lead span rest)
    (hcode : codeOf (.over fault range) ∈ Code.quoting)
    (hspan : source.slice range.start.offset range.stop.offset = String.ofList span) :
    Quotes (diagnose (.over fault range) source).message (String.ofList (lead ++ span)) ∧
      Filled (diagnose (.over fault range) source).entry.message
        (diagnose (.over fault range) source).args := by
  cases h with
  | directive =>
      have hslot : HasSlot Code.directive.entry.message
          ("unknown directive " ++ "'" ++ String.ofList ['%']) "name" "'" := by
        decide
      exact quotes_of_hasSlot hslot (by decide) (by rw [argumentsOf, hspan])
  | register =>
      have hslot : HasSlot Code.register.entry.message
          ("invalid register " ++ "'" ++ String.ofList ['$']) "name" "'" := by
        decide
      exact quotes_of_hasSlot hslot (by decide) (by rw [argumentsOf, hspan])
  | hex =>
      have hslot : HasSlot Code.hexLiteral.entry.message
          ("invalid hexadecimal literal " ++ "'" ++ String.ofList ['0', 'x']) "digits" "'" := by
        decide
      exact quotes_of_hasSlot hslot (by decide) (by rw [argumentsOf, hspan])
  | noBinary => exact absurd hcode (by decide : Code.binaryLiteral ∉ Code.quoting)
  | longBinary => exact absurd hcode (by decide : Code.binaryLiteral ∉ Code.quoting)
  | noUnsigned => exact absurd hcode (by decide : Code.unsignedLiteral ∉ Code.quoting)
  | unsigned => exact absurd hcode (by decide : Code.unsignedLiteral ∉ Code.quoting)
  | noSigned => exact absurd hcode (by decide : Code.signedLiteral ∉ Code.quoting)
  | signed => exact absurd hcode (by decide : Code.signedLiteral ∉ Code.quoting)

/-- What is quoted stands in front of the text that is at fault. -/
theorem exists_quoted (htext : source.chars = front ++ rear)
    (h : ErrorAt mode file (origin.past front) rear e) (hcode : codeOf e ∈ Code.quoting) :
    ∃ piece rest, rear = piece ++ rest ∧ piece ≠ [] ∧
      e.stop.offset = ((origin.past front).past piece).offset ∧
        (∀ what position, e = .unexpected what position → origin.past front = position) ∧
          Quotes (diagnose e source).message (String.ofList piece) ∧
            Filled (diagnose e source).entry.message (diagnose e source).args := by
  cases h with
  | @unexpected c rest hc =>
      refine ⟨[c], rest, rfl, List.cons_ne_nil _ _, ?_, ?_, quotes_unexpected c _⟩
      · rw [past_cons, pastOne, if_neg hc.ne_lineFeed]
        rfl
      · rintro what position ⟨⟩
        rfl
  | missing hmissing =>
      cases hmissing with
      | identifier => exact absurd hcode (by decide : Code.emptyIdentifier ∉ Code.quoting)
      | register => exact absurd hcode (by decide : Code.registerAtEnd ∉ Code.quoting)
  | @fault fault lead span rest hfault =>
      refine ⟨lead ++ span, rest, rfl, hfault.append_ne_nil, rfl, by rintro _ _ ⟨⟩, ?_⟩
      apply quotes_fault hfault hcode
      rw [SourceFile.slice, htext, Text.slice_past]

end

/-- When the message of an error quotes the source, then it quotes just the piece from where the
failing step begins to where the error ends, whatever characters this piece has. No slot of the
template is left over. -/
theorem message_quotes (files : Files) (id : Handle) (mode : NumericMode) (e : LexError)
    (h : files.tokenize id mode = .ok (.error e)) (hcode : codeOf e ∈ Code.quoting) :
    ∃ source l, files.get id = .ok source ∧
      (Lexer.start .standard mode id source.chars).StopsIn l (.failed e) ∧
        (0 ≤ l.position.offset ∧ l.position.offset < e.stop.offset ∧
          e.stop.offset ≤ source.chars.length) ∧
        (∀ what position, e = .unexpected what position → l.position = position) ∧
          Quotes (diagnose e source).message (source.slice l.position.offset e.stop.offset) ∧
            Filled (diagnose e source).entry.message (diagnose e source).args := by
  obtain ⟨source, hsource, htokenize⟩ := Files.tokenize_eq_ok_iff.mp h
  have hyields := tokenize_eq_iff_yields.mp htokenize
  cases hyields with
  | @error pieces tokens rear _ hcut herror =>
      have hlast := @Lexer.stopsIn_of_errorAt (Lexer.start .standard mode id source.chars) _ _ _ _
        hcut herror
      obtain ⟨piece, rest, rfl, hne, hstop, hposition, hquotes, hfilled⟩ :=
        exists_quoted hcut.text_eq herror hcode
      have hstart : ((Lexer.start .standard mode id source.chars).advance pieces.flatten
          (piece ++ rest) tokens).position.offset = pieces.flatten.length :=
        offset_past_origin _
      have hend : e.stop.offset = (pieces.flatten ++ piece).length := by
        rw [hstop, ← past_append, offset_past_origin]
      have hpos := List.length_pos_iff.mpr hne
      refine ⟨source, _, hsource, hlast, ⟨?_, ?_, ?_⟩, hposition, ?_, hfilled⟩
      · omega
      · rw [hstart, hend, List.length_append]
        omega
      · rw [hend, hcut.text_eq, ← List.append_assoc]
        exact Int.ofNat_le.mpr (List.prefix_append ..).length_le
      · rw [SourceFile.slice, hstart, hend, hcut.text_eq, ← List.append_assoc, Text.slice_append]
        exact hquotes

/-- Braces in the source are no slots of the message. -/
theorem message_quotes_brace :
    ∃ source l, (Files.register {} "main.vasm" "ld \x7bchar\x7d").1.get 0 = .ok source ∧
      (Lexer.start .standard .unsigned 0 source.chars).StopsIn l
          (.failed (.unexpected "\x7b" ⟨3, 0, 3⟩)) ∧
        Quotes (diagnose (.unexpected "\x7b" ⟨3, 0, 3⟩) source).message
          (source.slice l.position.offset 4) := by
  have hget := Files.get_of_register
    (rfl : Files.register {} "main.vasm" "ld \x7bchar\x7d" = (_, 0))
  have htokenize := Files.tokenize_eq_ok_iff.mpr ⟨_, hget, (by decide +kernel :
    AsmLexer.tokenize .standard .unsigned 0 "ld \x7bchar\x7d".toList =
      .error (.unexpected "\x7b" ⟨3, 0, 3⟩))⟩
  obtain ⟨source, l, hsource, hlast, -, -, hquotes, -⟩ :=
    message_quotes _ 0 .unsigned _ htokenize (by decide)
  exact ⟨source, l, hsource, hlast, hquotes⟩

end Diagnostic

end AsmLexer
