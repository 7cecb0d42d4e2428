import AsmLexer.Proofs.Splitting
import AsmLexer.Proofs.Truncation

/-!
# A lexeme by itself

What a step takes for a token is a lexeme by its own characters: the text behind it could only make
it longer. So the lexeme can be cut out of its text, and tokenizing it gives the same token again.
-/

namespace AsmLexer

open Text Grammar Position

section

variable {table : InstructionTable} {mode : NumericMode} {lead word rest : List Char}
  {body : Token.Body}

theorem tokenize_segment
    (h : Segment (Name.wordBody table) mode lead word rest (some body)) (file : Handle) :
    tokenize table mode file (lead ++ word) =
      .tokens [segmentToken file .origin lead word body] := by
  have hcut : Cut (Name.wordBody table) mode file .origin (lead ++ word ++ rest) [lead ++ word]
      [segmentToken file .origin lead word body] rest :=
    .cons h (.nil ..)
  have htokens := hcut.tokenize_flatten
  rwa [List.flatten_singleton] at htokens

end

namespace Lexer

variable {l m : Lexer} {text : List Char} {t : Token}

/-- A step that adds a token takes the segment of this token. -/
theorem Steps.exists_segment (hstep : l.Steps m)
    (hstored : m.store.toList = l.store.toList ++ [t]) :
    ∃ lead word rest body, Segment (Name.wordBody l.table) l.mode lead word rest (some body) ∧
      l.rest = lead ++ word ++ rest ∧ t = segmentToken l.file l.position lead word body ∧
        m = l.advance (lead ++ word) rest [t] := by
  cases hstep with
  | intro hrest =>
      rcases after_cases hrest with
        ⟨lead, word, rest, found, h, htext, hafter⟩ | ⟨passed, rest, -, hafter⟩
      · rw [hafter, toList_store_advance] at hstored
        have htokens := List.append_cancel_left hstored
        cases found with
        | none => cases htokens
        | some body =>
            obtain rfl := (List.cons.inj htokens).1
            exact ⟨lead, word, rest, body, h, htext, rfl, hafter⟩
      · rw [hafter, toList_store_advance] at hstored
        cases List.append_cancel_left hstored

/-- The characters that lie between the lexer and a place further on. -/
theorem StandsIn.slice_past {passed rest : List Char} (h : StandsIn text l)
    (hrest : l.rest = passed ++ rest) :
    slice text l.position.offset (l.position.past passed).offset = passed := by
  obtain ⟨front, rfl, hposition⟩ := h
  have hslice := Text.slice_past front [] passed rest
  rwa [List.nil_append, past_nil, ← hposition, ← hrest] at hslice

/-- When a step of a session adds a token, the characters that it goes over are tokenized by
themselves to one token, which stands for the same and begins and ends as far from the first of
them. -/
theorem tokenize_step {table : InstructionTable} {mode : NumericMode} {file : Handle}
    (hreach : (start table mode file text).Reaches l) (hstep : l.Steps m)
    (hstored : m.store.toList = l.store.toList ++ [t]) (other : Handle) :
    ∃ u, tokenize table mode other (slice text l.position.offset m.position.offset) = .tokens [u] ∧
      u.body = t.body ∧ u.range.start.offset = t.range.start.offset - l.position.offset ∧
        u.range.stop.offset = t.range.stop.offset - l.position.offset := by
  obtain rfl : table = l.table := hreach.table_eq.symm
  obtain rfl : mode = l.mode := hreach.mode_eq.symm
  have hstands := (standsIn_start l.table l.mode file text).of_reaches hreach
  obtain ⟨lead, word, rest, body, h, htext, rfl, rfl⟩ := hstep.exists_segment hstored
  have hpiece : slice text l.position.offset (l.position.past (lead ++ word)).offset =
      lead ++ word := hstands.slice_past htext
  refine ⟨segmentToken other .origin lead word body, ?_, rfl, ?_, ?_⟩
  · rw [advance, hpiece]
    exact tokenize_segment h other
  · simp only [segmentToken, offset_past, origin]
    omega
  · simp only [segmentToken, offset_past, origin]
    omega

/-- The register is cut out of a text where a letter comes right behind it. -/
theorem tokenize_step_register :
    ∃ u, tokenize .standard .signed 3 "$rsp".toList = .tokens [u] ∧ u.body = .register 0 ∧
      u.range.start.offset = 3 - 2 ∧ u.range.stop.offset = 6 - 2 := by
  have hnumber : Reading.next .standard .signed '-' "0$rspx".toList = .token (.signed 0) 0 2 := by
    decide +kernel
  have hregister : Reading.next .standard .signed '$' "rspx".toList = .token (.register 0) 1 3 := by
    decide +kernel
  have hreach := @reaches_after (start .standard .signed 0 "-0$rspx".toList) '-' "0$rspx".toList rfl
  have hstep := @Steps.intro ((start .standard .signed 0 "-0$rspx".toList).after
    (.token (.signed 0) 0 2)) '$' "rspx".toList rfl
  simp only [start, after] at hreach hstep
  rw [hnumber] at hreach
  rw [hregister] at hstep
  exact tokenize_step hreach hstep rfl 3

end Lexer

end AsmLexer
