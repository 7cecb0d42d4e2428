import AsmLexer.Proofs.Results
import AsmLexer.Proofs.Session

/-!
# Where a run stops

A run takes segments up to a place where there is none. What it finds there is the end of the text,
a fault or a float literal, and this says with which outcome and in which state the run ends.
-/

namespace AsmLexer.Lexer

open Grammar Position

/-- The run from `l` ends with this outcome in this state. -/
inductive RunsTo (l : Lexer) : Outcome → Lexer → Prop
  | finished {pieces : List (List Char)} {tokens : List Token}
      (hcut : Cut (Name.wordBody l.table) l.mode l.file l.position l.rest pieces tokens []) :
      RunsTo l .finished (l.advance pieces.flatten [] tokens)
  | unexpected {pieces : List (List Char)} {tokens : List Token} {c : Char} {rest : List Char}
      (hcut : Cut (Name.wordBody l.table) l.mode l.file l.position l.rest pieces tokens (c :: rest))
      (h : Unexpected l.mode c) :
      RunsTo l (.failed (.unexpected (String.singleton c) (l.position.past pieces.flatten)))
        (l.advance pieces.flatten (c :: rest) tokens)
  | missing {pieces : List (List Char)} {tokens : List Token} {fault : PointFault}
      {lead passed rest : List Char}
      (hcut : Cut (Name.wordBody l.table) l.mode l.file l.position l.rest pieces tokens
        (lead ++ passed ++ rest))
      (h : Missing fault lead passed rest) :
      RunsTo l (.failed (.atPoint fault ((l.position.past pieces.flatten).past lead)))
        (l.advance (pieces.flatten ++ (lead ++ passed)) rest tokens)
  | fault {pieces : List (List Char)} {tokens : List Token} {fault : SpanFault}
      {lead span rest : List Char}
      (hcut : Cut (Name.wordBody l.table) l.mode l.file l.position l.rest pieces tokens
        (lead ++ span ++ rest))
      (h : Fault l.mode fault lead span rest) :
      RunsTo l (.failed (.over fault ⟨(l.position.past pieces.flatten).past lead,
          (l.position.past pieces.flatten).past (lead ++ span), l.file⟩))
        (l.advance (pieces.flatten ++ (lead ++ span)) rest tokens)
  | float {pieces : List (List Char)} {tokens : List Token} {lead rest : List Char}
      (hcut : Cut (Name.wordBody l.table) l.mode l.file l.position l.rest pieces tokens
        (lead ++ rest))
      (h : FloatAhead l.mode lead rest) :
      RunsTo l (.unsupported (.floatLiteral ((l.position.past pieces.flatten).past lead)))
        (l.advance (pieces.flatten ++ lead) rest tokens)

section

variable {l m : Lexer} {outcome : Outcome} {pieces : List (List Char)} {tokens : List Token}
  {passed rest : List Char} {r : Reading}

/-- A run that passes over something at the place where it stops. -/
theorem run_cut_passed
    (hcut : Cut (Name.wordBody l.table) l.mode l.file l.position l.rest pieces tokens
      (passed ++ rest))
    (hstop : StopsAt (Name.wordBody l.table) l.mode (passed ++ rest) r)
    (hout : (l.advance pieces.flatten (passed ++ rest) tokens).outcome? r = some outcome)
    (hconsumed : r.consumed = passed.length) (hline : '\n' ∉ passed) :
    l.run = (outcome, l.advance (pieces.flatten ++ passed) rest tokens) := by
  obtain ⟨outcome', hout', hrun⟩ := run_cut_stop hcut hstop
  obtain rfl := Option.some.inj (hout.symm.trans hout')
  rw [hrun, after_stop rfl hstop.2 hconsumed hline, advance_advance, List.append_nil]

theorem RunsTo.run_eq (h : RunsTo l outcome m) : l.run = (outcome, m) := by
  cases h with
  | finished hcut => exact run_cut_nil hcut
  | unexpected hcut h =>
      have hrun := @run_cut_passed l _ _ _ [] _ _ hcut ⟨.unexpected _ h, rfl⟩ rfl rfl
        List.not_mem_nil
      rwa [List.append_nil] at hrun
  | missing hcut h =>
      exact run_cut_passed hcut ⟨.missing h, rfl⟩ (outcome?_atPoint h) List.length_append.symm
        h.lineFeed_notMem
  | @fault pieces tokens fault lead span rest hcut h =>
      exact run_cut_passed hcut ⟨.fault h, rfl⟩ (@outcome?_over (l.advance _ _ _) _ _ _ _ h)
        List.length_append.symm h.lineFeed_notMem
  | float hcut h =>
      exact run_cut_passed hcut ⟨.float h, rfl⟩ (@outcome?_float (l.advance _ _ _) _ _ h) rfl
        h.lineFeed_notMem

theorem exists_runsTo (l : Lexer) : ∃ outcome m, RunsTo l outcome m := by
  obtain ⟨pieces, tokens, rear, hcut, hrear⟩ :=
    Cut.exists_stop (Name.wordBody l.table) l.mode l.file l.position l.rest
  rcases hrear with rfl | ⟨r, hreads, hstop⟩
  · exact ⟨_, _, .finished hcut⟩
  · cases hreads with
    | segment => simp [continues_segmentReading] at hstop
    | unexpected rest h => exact ⟨_, _, .unexpected hcut h⟩
    | missing h => exact ⟨_, _, .missing hcut h⟩
    | fault h => exact ⟨_, _, .fault hcut h⟩
    | float h => exact ⟨_, _, .float hcut h⟩

/-- Every run ends in one of these ways. -/
theorem runsTo_run (l : Lexer) : RunsTo l l.run.1 l.run.2 := by
  obtain ⟨outcome, m, h⟩ := l.exists_runsTo
  rw [h.run_eq]
  exact h

/-! ## The last step -/

/-- The run from `l` makes its last step in the state `m`, and has this outcome. -/
inductive StopsIn : (l m : Lexer) → Outcome → Prop
  | here {l : Lexer} {c : Char} {cs : List Char} {outcome : Outcome} (hrest : l.rest = c :: cs)
      (hstop : l.outcome? (Reading.next l.table l.mode c cs) = some outcome) :
      StopsIn l l outcome
  | later {l m : Lexer} {c : Char} {cs : List Char} {outcome : Outcome} (hrest : l.rest = c :: cs)
      (hgo : l.outcome? (Reading.next l.table l.mode c cs) = none)
      (h : StopsIn (l.after (Reading.next l.table l.mode c cs)) m outcome) : StopsIn l m outcome

/-- The run ends where its last step leads. -/
theorem StopsIn.run_eq (h : StopsIn l m outcome) : ∃ k, m.Steps k ∧ l.run = (outcome, k) := by
  induction h with
  | here hrest hstop => exact ⟨_, .intro hrest, run_of_outcome?_eq_some hrest hstop⟩
  | later hrest hgo _ ih =>
      rw [run_of_outcome?_eq_none hrest hgo]
      exact ih

theorem stopsIn_of_segment {lead word : List Char} {found : Option Token.Body}
    (h : Segment (Name.wordBody l.table) l.mode lead word rest found)
    (hrest : l.rest = lead ++ word ++ rest)
    (hstop : StopsIn (l.advance (lead ++ word) rest
      (segmentTokens l.file l.position lead word found)) m outcome) : StopsIn l m outcome := by
  obtain ⟨c, cs, htext⟩ := List.exists_cons_of_ne_nil (Reads.segment h).ne_nil
  have hnext := Reading.next_segment h htext
  apply StopsIn.later (hrest.trans htext)
  · rw [hnext, outcome?_segmentReading]
  · rw [hnext, after_segment h hrest]
    exact hstop

/-- All steps along a cutting are made before the last one. -/
theorem stopsIn_of_cut {rear : List Char}
    (hcut : Cut (Name.wordBody l.table) l.mode l.file l.position l.rest pieces tokens rear)
    (hstop : StopsIn (l.advance pieces.flatten rear tokens) m outcome) : StopsIn l m outcome := by
  generalize hwords : Name.wordBody l.table = words at hcut
  generalize hmode : l.mode = mode at hcut
  generalize hfile : l.file = file at hcut
  generalize hposition : l.position = p at hcut
  generalize htext : l.rest = text at hcut
  induction hcut generalizing l with
  | nil p rear =>
      subst htext
      rwa [List.flatten_nil, advance_nil] at hstop
  | @cons p lead word rest rear found pieces tokens hhead htail ih =>
      subst hwords hmode hfile hposition
      rw [List.flatten_cons, ← advance_advance _ _ _ rest] at hstop
      exact stopsIn_of_segment hhead htext (ih hstop rfl rfl rfl rfl rfl)

/-- Where a text is at fault, the run comes to its last step. -/
theorem stopsIn_of_errorAt {rear : List Char} {e : LexError}
    (hcut : Cut (Name.wordBody l.table) l.mode l.file l.position l.rest pieces tokens rear)
    (herror : ErrorAt l.mode l.file (l.position.past pieces.flatten) rear e) :
    StopsIn l (l.advance pieces.flatten rear tokens) (.failed e) := by
  obtain ⟨r, ⟨hreads, -⟩, hout⟩ := @exists_stopsAt_of_errorAt
    (l.advance pieces.flatten rear tokens) e (Name.wordBody l.table) herror
  obtain ⟨c, cs, hrear⟩ := List.exists_cons_of_ne_nil hreads.ne_nil
  apply stopsIn_of_cut hcut
  apply StopsIn.here hrear
  rw [← hout]
  exact congrArg _ (Reading.next_eq_of_reads hreads hrear)

end

end AsmLexer.Lexer
