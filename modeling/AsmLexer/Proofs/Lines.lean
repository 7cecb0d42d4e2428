import AsmLexer.Proofs.Continuation
import AsmLexer.Proofs.Results
import AsmLexer.Proofs.Translation

/-!
# Line by line

A text may be tokenized in two parts that meet at a line feed. The part below is read as if it
stood alone, only further down, unless the part above has stopped the lexer before.
-/

namespace AsmLexer

open Grammar Position

/-- Where a position is when the lines `above` and a line feed come before its text. -/
def Position.below (above : List Char) (p : Position) : Position :=
  ⟨p.offset + above.length + 1, p.row + above.count '\n' + 1, p.column⟩

/-- The result for the lines `above`, a line feed and the lines below, from the results for the
two parts. The error of a register that is cut off by the end of `above` is another one where the
text goes on: the name that ends there is not that of a register. -/
def Tokenized.joinLines (file : Handle) (above : List Char) : Tokenized → Tokenized → Tokenized
  | .tokens front, .tokens rear => .tokens (front ++ rear.map (Token.moved (below above)))
  | .tokens _, .error e => .error (e.moved (below above))
  | .tokens _, .unsupported cause => .unsupported (cause.moved (below above))
  | .error (.atPoint .registerAtEnd p), _ => .error (.over .register ⟨p, origin.past above, file⟩)
  | .error e, _ => .error e
  | .unsupported cause, _ => .unsupported cause

/-! ## The places below -/

namespace Position

variable (above : List Char)

theorem below_pastOne (p : Position) (c : Char) :
    (p.pastOne c).below above = (p.below above).pastOne c := by
  by_cases hc : c = '\n'
  · simp only [pastOne, hc, if_true, nextLine, below, Position.mk.injEq]
    refine ⟨?_, ?_, trivial⟩ <;> omega
  · simp only [pastOne, hc, if_false, right, below, Position.mk.injEq]
    refine ⟨?_, trivial, trivial⟩
    omega

theorem below_past (p : Position) (chars : List Char) :
    (p.past chars).below above = (p.below above).past chars := by
  induction chars generalizing p with
  | nil => rfl
  | cons c chars ih => rw [past_cons, past_cons, ih, below_pastOne]

theorem below_origin : origin.below above = (origin.past above).pastOne '\n' := by
  rw [pastOne, if_pos rfl, nextLine, offset_past_origin, row_past_origin, below, origin,
    Int.zero_add, Int.zero_add]

theorem moves_below : Moves (below above) origin ((origin.past above).pastOne '\n') := by
  intro chars
  rw [below_past, below_origin]

end Position

/-! ## Two parts -/

variable {words : List Char → Token.Body} {mode : NumericMode} {file : Handle}
  {above below rear : List Char} {front pieces : List (List Char)} {frontTokens tokens : List Token}

/-- The cutting goes on below the line feed. -/
theorem Cut.joinLines (habove : Cut words mode file .origin above front frontTokens [])
    (hbelow : Cut words mode file .origin below pieces tokens rear) :
    Cut words mode file .origin (above ++ '\n' :: below) (front ++ ['\n'] :: pieces)
      (frontTokens ++ tokens.map (Token.moved (Position.below above))) rear := by
  have hfront : front.flatten = above := by
    rw [habove.text_eq, List.append_nil]
  have hline : Cut words mode file (origin.past front.flatten) ('\n' :: below) (['\n'] :: pieces)
      (tokens.map (Token.moved (Position.below above))) rear := by
    rw [hfront]
    exact .cons (.lineFeed below) (hbelow.moved (moves_below above))
  exact (habove.append (sameAhead_lineFeed [] below)).trans hline

theorem past_flatten_joinLines (habove : Cut words mode file .origin above front frontTokens []) :
    origin.past (front ++ ['\n'] :: pieces).flatten =
      (origin.past pieces.flatten).below above := by
  have hfront : front.flatten = above := by
    rw [habove.text_eq, List.append_nil]
  rw [below_past, below_origin, List.flatten_append, hfront, List.flatten_cons, past_append]
  rfl

theorem Tokenized.joinLines_error {e : LexError} (hend : ∀ q, e ≠ .atPoint .registerAtEnd q)
    (second : Tokenized) : (error e).joinLines file above second = error e := by
  cases e with
  | atPoint fault q =>
      cases fault with
      | registerAtEnd => exact absurd rfl (hend q)
      | _ => rfl
  | _ => rfl

theorem Yields.joinLines {first second : Tokenized}
    (habove : Yields words mode file above first) (hbelow : Yields words mode file below second) :
    Yields words mode file (above ++ '\n' :: below) (first.joinLines file above second) := by
  have hmore (rest : List Char) : SameAhead rest ('\n' :: below) := sameAhead_lineFeed rest below
  have hstops : StopsAlike [] ('\n' :: below) := (hmore []).stopsAlike
  cases habove with
  | tokens hcut =>
      cases hbelow with
      | tokens hcut' => exact .tokens (hcut.joinLines hcut')
      | error hcut' herror =>
          have hmoved := herror.moved ((moves_below above).past _)
          refine .error (hcut.joinLines hcut') ?_
          rw [past_flatten_joinLines hcut, below_past, below_origin]
          exact hmoved
      | @unsupported pieces tokens lead rest hcut' hfloat =>
          have hyields := Yields.unsupported (hcut.joinLines hcut') hfloat
          rw [past_flatten_joinLines hcut, ← below_past] at hyields
          exact hyields
  | @error pieces tokens rear e hcut herror =>
      have hcut' := hcut.append (hmore rear)
      by_cases hend : ∃ q, e = .atPoint .registerAtEnd q
      · obtain ⟨q, rfl⟩ := hend
        have hregister := herror.register_of_registerAtEnd hstops (List.cons_ne_nil _ _)
        rw [← past_append, ← hcut.text_eq] at hregister
        exact .error hcut' hregister
      · rw [Tokenized.joinLines_error (not_exists.mp hend)]
        exact .error hcut' (herror.append hstops (not_exists.mp hend))
  | unsupported hcut hfloat =>
      have hcut' := hcut.append (hmore _)
      rw [List.append_assoc] at hcut'
      exact .unsupported hcut' (hfloat.append hstops)

/-- A text is tokenized line by line: where a line feed stands, the result for the whole is that
for the text above it, continued with that for the text below it. -/
theorem tokenize_append_lineFeed (table : InstructionTable) (mode : NumericMode) (file : Handle)
    (above below : List Char) :
    tokenize table mode file (above ++ '\n' :: below) =
      (tokenize table mode file above).joinLines file above (tokenize table mode file below) :=
  tokenize_eq_of_yields ((yields_tokenize ..).joinLines (yields_tokenize ..))

end AsmLexer
