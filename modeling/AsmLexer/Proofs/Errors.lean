import AsmLexer.Proofs.Tokenization

/-!
# Errors of a run

The error of a run is about what stands behind the cutting, where no segment begins. `ErrorAt` says
which error belongs to a fault there and in what place. A run fails with this error and no other.
-/

namespace AsmLexer

open Grammar

/-- The place behind what the error is about. -/
def LexError.stop : LexError → Position
  | .unexpected _ position => position.right 1
  | .atPoint _ position => position
  | .over _ range => range.stop

/-- The error for the text `rear`, which stands at the position `p` and begins with a fault. -/
inductive ErrorAt (mode : NumericMode) (file : Handle) (p : Position) :
    (rear : List Char) → LexError → Prop
  | unexpected {c : Char} (rest : List Char) (h : Unexpected mode c) :
      ErrorAt mode file p (c :: rest) (.unexpected (String.singleton c) p)
  | missing {fault : PointFault} {lead passed rest : List Char}
      (h : Missing fault lead passed rest) :
      ErrorAt mode file p (lead ++ passed ++ rest) (.atPoint fault (p.past lead))
  | fault {fault : SpanFault} {lead span rest : List Char} (h : Fault mode fault lead span rest) :
      ErrorAt mode file p (lead ++ span ++ rest)
        (.over fault ⟨p.past lead, p.past (lead ++ span), file⟩)

namespace ErrorAt

variable {mode : NumericMode} {file : Handle} {p : Position} {rear : List Char}

theorem not_secondDecimalPoint (position : Position) :
    ¬ErrorAt mode file p rear (.atPoint .secondDecimalPoint position) := by
  rintro (_ | ⟨⟨⟩⟩)

theorem not_floatLiteral (range : Range) :
    ¬ErrorAt mode file p rear (.over .floatLiteral range) := by
  rintro (_ | _ | ⟨⟨⟩⟩)

theorem ne_nil {e : LexError} (h : ErrorAt mode file p rear e) : rear ≠ [] := by
  cases h with
  | unexpected => exact List.cons_ne_nil _ _
  | missing h => exact List.append_ne_nil_of_left_ne_nil h.append_ne_nil _
  | fault h => exact List.append_ne_nil_of_left_ne_nil h.append_ne_nil _

end ErrorAt

namespace Lexer

variable {l : Lexer} {words : List Char → Token.Body} {e : LexError}

theorem outcome?_atPoint {fault : PointFault} {lead passed rest : List Char}
    (h : Missing fault lead passed rest) :
    l.outcome? (.atPoint fault lead.length (lead.length + passed.length)) =
      some (.failed (.atPoint fault (l.position.past lead))) := by
  have hlead : '\n' ∉ lead := fun hmem ↦ h.lineFeed_notMem (List.mem_append_left passed hmem)
  rw [l.position.past_eq_right hlead]
  rfl

theorem outcome?_over {fault : SpanFault} {lead span rest : List Char}
    (h : Fault l.mode fault lead span rest) :
    l.outcome? (.over fault lead.length span.length) =
      some (.failed (.over fault
        ⟨l.position.past lead, l.position.past (lead ++ span), l.file⟩)) := by
  have hlead : '\n' ∉ lead := fun hmem ↦ h.lineFeed_notMem (List.mem_append_left span hmem)
  rw [l.position.past_eq_right hlead, l.position.past_eq_right h.lineFeed_notMem,
    List.length_append, ← Position.right_right]
  rfl

theorem errorAt_of_outcome? {r : Reading} (hreads : Reads words l.mode l.rest r)
    (hout : l.outcome? r = some (.failed e)) : ErrorAt l.mode l.file l.position l.rest e := by
  generalize hrest : l.rest = rear at hreads
  cases hreads with
  | segment h =>
      rw [outcome?_segmentReading] at hout
      cases hout
  | unexpected rest h =>
      obtain rfl := Outcome.failed.inj (Option.some.inj hout)
      exact .unexpected rest h
  | missing h =>
      rw [outcome?_atPoint h] at hout
      obtain rfl := Outcome.failed.inj (Option.some.inj hout)
      exact .missing h
  | fault h =>
      rw [outcome?_over h] at hout
      obtain rfl := Outcome.failed.inj (Option.some.inj hout)
      exact .fault h
  | float => cases hout

theorem exists_stopsAt_of_errorAt (words : List Char → Token.Body)
    (h : ErrorAt l.mode l.file l.position l.rest e) :
    ∃ r, StopsAt words l.mode l.rest r ∧ l.outcome? r = some (.failed e) := by
  generalize hrest : l.rest = rear at h
  cases h with
  | unexpected rest h => exact ⟨_, ⟨.unexpected rest h, rfl⟩, rfl⟩
  | missing h => exact ⟨_, ⟨.missing h, rfl⟩, outcome?_atPoint h⟩
  | fault h => exact ⟨_, ⟨.fault h, rfl⟩, outcome?_over h⟩

theorem run_fst_eq_failed_iff :
    l.run.1 = .failed e ↔ ∃ pieces tokens rear,
      Cut (Name.wordBody l.table) l.mode l.file l.position l.rest pieces tokens rear ∧
        ErrorAt l.mode l.file (l.position.past pieces.flatten) rear e := by
  constructor
  · intro hrun
    obtain ⟨pieces, tokens, rear, hcut, hcase⟩ := l.run_cases
    rcases hcase with ⟨-, hrun'⟩ | ⟨r, outcome, hstop, hout, hrun'⟩
    · rw [hrun'] at hrun
      cases hrun
    · rw [hrun'] at hrun
      subst hrun
      have hreads : Reads (Name.wordBody (l.advance pieces.flatten rear tokens).table)
          (l.advance pieces.flatten rear tokens).mode
          (l.advance pieces.flatten rear tokens).rest r := hstop.1
      exact ⟨pieces, tokens, rear, hcut, errorAt_of_outcome? hreads hout⟩
  · rintro ⟨pieces, tokens, rear, hcut, h⟩
    obtain ⟨r, hstop, hout⟩ := @exists_stopsAt_of_errorAt
      (l.advance pieces.flatten rear tokens) e (Name.wordBody l.table) h
    obtain ⟨outcome, hout', hrun⟩ := run_cut_stop hcut hstop
    rw [hrun]
    exact Option.some.inj (hout'.symm.trans hout)

end Lexer

/-- The errors of a first run, and what the text is like where they are. -/
theorem run_start_fst_eq_failed_iff (mode : NumericMode) (file : Handle) (text : List Char)
    (e : LexError) :
    ((Lexer.start .standard mode file text).run.1 = .failed e ↔
      ∃ pieces tokens rear, text = pieces.flatten ++ rear ∧
        Cut InstructionTable.standard.meaning mode file .origin text pieces tokens rear ∧
          ErrorAt mode file (Position.origin.past pieces.flatten) rear e) ∧
      (∀ position, (Lexer.start .standard mode file text).run.1 ≠
        .failed (.atPoint .secondDecimalPoint position)) ∧
      ∀ range, (Lexer.start .standard mode file text).run.1 ≠
        .failed (.over .floatLiteral range) := by
  rw [← InstructionTable.wordBody_standard]
  refine ⟨?_, ?_, ?_⟩
  · constructor
    · intro hrun
      obtain ⟨pieces, tokens, rear, hcut, h⟩ := Lexer.run_fst_eq_failed_iff.mp hrun
      exact ⟨pieces, tokens, rear, hcut.text_eq, hcut, h⟩
    · rintro ⟨pieces, tokens, rear, -, hcut, h⟩
      exact Lexer.run_fst_eq_failed_iff.mpr ⟨pieces, tokens, rear, hcut, h⟩
  · intro position hrun
    obtain ⟨_, _, _, _, h⟩ := Lexer.run_fst_eq_failed_iff.mp hrun
    exact h.not_secondDecimalPoint
  · intro range hrun
    obtain ⟨_, _, _, _, h⟩ := Lexer.run_fst_eq_failed_iff.mp hrun
    exact h.not_floatLiteral

end AsmLexer
