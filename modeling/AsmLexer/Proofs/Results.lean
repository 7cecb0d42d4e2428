import AsmLexer.Proofs.Errors

/-!
# What tokenizing gives

Besides the tokens of a text and its errors there is the literal that is not read yet. Each of the
three results is told by a cutting and by what stands behind it, and every text has just one.
-/

namespace AsmLexer

open Grammar Position

/-- The result for a text that is cut up to its end, to a fault or to a float literal. -/
inductive Yields (words : List Char → Token.Body) (mode : NumericMode) (file : Handle)
    (text : List Char) : Tokenized → Prop
  | tokens {pieces : List (List Char)} {tokens : List Token}
      (hcut : Cut words mode file .origin text pieces tokens []) :
      Yields words mode file text (.tokens tokens)
  | error {pieces : List (List Char)} {tokens : List Token} {rear : List Char} {e : LexError}
      (hcut : Cut words mode file .origin text pieces tokens rear)
      (herror : ErrorAt mode file (origin.past pieces.flatten) rear e) :
      Yields words mode file text (.error e)
  | unsupported {pieces : List (List Char)} {tokens : List Token} {lead rest : List Char}
      (hcut : Cut words mode file .origin text pieces tokens (lead ++ rest))
      (hfloat : FloatAhead mode lead rest) :
      Yields words mode file text
        (.unsupported (.floatLiteral ((origin.past pieces.flatten).past lead)))

namespace Lexer

variable {l : Lexer} {words : List Char → Token.Body} {lead rest : List Char}

theorem outcome?_float (h : FloatAhead l.mode lead rest) :
    l.outcome? (.float lead.length) =
      some (.unsupported (.floatLiteral (l.position.past lead))) := by
  rw [l.position.past_eq_right h.lineFeed_notMem]
  rfl

theorem exists_floatAhead_of_outcome? {r : Reading} {cause : Unsupported}
    (hreads : Reads words l.mode l.rest r) (hout : l.outcome? r = some (.unsupported cause)) :
    ∃ lead rest, l.rest = lead ++ rest ∧ FloatAhead l.mode lead rest ∧
      cause = .floatLiteral (l.position.past lead) := by
  generalize hrest : l.rest = rear at hreads
  cases hreads with
  | segment h =>
      rw [outcome?_segmentReading] at hout
      cases hout
  | float h =>
      rw [outcome?_float h] at hout
      exact ⟨_, _, rfl, h, (Outcome.unsupported.inj (Option.some.inj hout)).symm⟩
  | _ => cases hout

end Lexer

section

variable {table : InstructionTable} {mode : NumericMode} {file : Handle} {text : List Char}

theorem yields_tokenize (table : InstructionTable) (mode : NumericMode) (file : Handle)
    (text : List Char) :
    Yields (Name.wordBody table) mode file text (tokenize table mode file text) := by
  obtain ⟨pieces, tokens, rear, hcut, hcase⟩ := (Lexer.start table mode file text).run_cases
  unfold tokenize
  rcases hcase with ⟨rfl, hrun⟩ | ⟨r, outcome, hstop, hout, hrun⟩
  · rw [hrun]
    have hstore : ((Lexer.start table mode file text).advance pieces.flatten []
        tokens).store.toList = tokens := Lexer.toList_store_advance ..
    simp only [hstore]
    exact .tokens hcut
  · rw [hrun]
    cases outcome with
    | finished => exact absurd hout (Lexer.outcome?_ne_finished _ _)
    | failed e => exact .error hcut (Lexer.errorAt_of_outcome? hstop.1 hout)
    | unsupported cause =>
        obtain ⟨lead, rest, hrear, hfloat, rfl⟩ :=
          Lexer.exists_floatAhead_of_outcome? hstop.1 hout
        obtain rfl : rear = lead ++ rest := hrear
        exact .unsupported hcut hfloat

theorem tokenize_eq_of_yields {result : Tokenized}
    (h : Yields (Name.wordBody table) mode file text result) :
    tokenize table mode file text = result := by
  unfold tokenize
  cases h with
  | tokens hcut =>
      have hrun := @Lexer.run_cut_nil (Lexer.start table mode file text) _ _ hcut
      rw [hrun]
      exact congrArg Tokenized.tokens (Lexer.toList_store_advance ..)
  | @error pieces tokens rear e hcut herror =>
      obtain ⟨r, hstop, hout⟩ := @Lexer.exists_stopsAt_of_errorAt
        ((Lexer.start table mode file text).advance pieces.flatten rear tokens) e
        (Name.wordBody table) herror
      obtain ⟨outcome, hout', hrun⟩ :=
        @Lexer.run_cut_stop (Lexer.start table mode file text) _ _ _ hcut r hstop
      obtain rfl := Option.some.inj (hout.symm.trans hout')
      rw [hrun]
  | @unsupported pieces tokens lead rest hcut hfloat =>
      have hout := @Lexer.outcome?_float
        ((Lexer.start table mode file text).advance pieces.flatten (lead ++ rest) tokens)
        lead rest hfloat
      obtain ⟨outcome, hout', hrun⟩ :=
        @Lexer.run_cut_stop (Lexer.start table mode file text) _ _ _ hcut (.float lead.length)
          ⟨.float hfloat, rfl⟩
      obtain rfl := Option.some.inj (hout.symm.trans hout')
      rw [hrun]
      rfl

/-- Whatever tokenizing gives is told by the grammar alone. -/
theorem tokenize_eq_iff_yields {result : Tokenized} :
    tokenize table mode file text = result ↔
      Yields (Name.wordBody table) mode file text result := by
  refine ⟨?_, tokenize_eq_of_yields⟩
  rintro rfl
  exact yields_tokenize table mode file text

theorem exists_cut_of_tokenize {tokens : List Token}
    (h : tokenize table mode file text = .tokens tokens) :
    ∃ pieces, Cut (Name.wordBody table) mode file .origin text pieces tokens [] := by
  have hyields := tokenize_eq_iff_yields.mp h
  cases hyields with
  | tokens hcut => exact ⟨_, hcut⟩

theorem exists_errorAt_of_tokenize {e : LexError} (h : tokenize table mode file text = .error e) :
    ∃ front rear, text = front ++ rear ∧ ErrorAt mode file (origin.past front) rear e := by
  have hyields := tokenize_eq_iff_yields.mp h
  cases hyields with
  | error hcut herror => exact ⟨_, _, hcut.text_eq, herror⟩

end

end AsmLexer
