import AsmLexer.Proofs.Lookahead
import AsmLexer.Proofs.Results
import AsmLexer.Proofs.Session
import AsmLexer.Proofs.Translation

/-!
# Line endings

A carriage return in front of a line feed ends a lexeme just as the line feed does, and is passed
over as a blank, or as the last character of a comment. So it is the same whether lines end with a
line feed alone or with both characters, but for the offsets.
-/

namespace AsmLexer

open Text Grammar

/-- The text with a carriage return in front of each line feed. -/
def Text.withReturns (text : List Char) : List Char :=
  text.flatMap fun c ↦ if c = '\n' then ['\r', '\n'] else [c]

/-- Where `p` is when there is a carriage return in front of each line feed. -/
def Position.withReturns (p : Position) : Position :=
  ⟨p.offset + p.row, p.row, p.column⟩

def Tokenized.moved (f : Position → Position) : Tokenized → Tokenized
  | .tokens list => .tokens (list.map (Token.moved f))
  | .error e => .error (e.moved f)
  | .unsupported cause => .unsupported (cause.moved f)

namespace Text

@[simp] theorem withReturns_nil : withReturns [] = [] := rfl

@[simp] theorem withReturns_lineFeed (below : List Char) :
    withReturns ('\n' :: below) = '\r' :: '\n' :: withReturns below := rfl

theorem withReturns_cons {c : Char} (hc : c ≠ '\n') (rest : List Char) :
    withReturns (c :: rest) = c :: withReturns rest := by
  simp [withReturns, hc]

theorem withReturns_append (front rear : List Char) :
    withReturns (front ++ rear) = withReturns front ++ withReturns rear :=
  List.flatMap_append

theorem withReturns_eq_self {line : List Char} (h : '\n' ∉ line) : withReturns line = line := by
  induction line with
  | nil => rfl
  | cons c line ih =>
      obtain ⟨hc, hline⟩ := not_or.mp (mt List.mem_cons.mpr h)
      rw [withReturns_cons (Ne.symm hc), ih hline]

theorem stopsAlike_withReturns (rest : List Char) : StopsAlike rest (withReturns rest) := by
  cases rest with
  | nil => exact ⟨nofun, fun _ ↦ rfl⟩
  | cons c rest =>
      by_cases hc : c = '\n'
      · subst hc
        refine ⟨?_, nofun⟩
        rintro d hd
        obtain rfl : '\r' = d := Option.some.inj hd
        exact .inr (by decide)
      · rw [withReturns_cons hc]
        exact ⟨fun d hd ↦ .inl hd, nofun⟩

end Text

namespace Position

theorem keepsLines_withReturns : KeepsLines Position.withReturns := by
  intro p count
  simp only [withReturns, right, mk.injEq, and_true]
  omega

theorem withReturns_nextLine (p : Position) :
    p.nextLine.withReturns = (p.withReturns.right 1).nextLine := by
  simp only [withReturns, right, nextLine, mk.injEq, and_true]
  omega

theorem withReturns_past (p : Position) (chars : List Char) :
    (p.past chars).withReturns = p.withReturns.past (Text.withReturns chars) := by
  induction chars generalizing p with
  | nil => rfl
  | cons c chars ih =>
      by_cases hc : c = '\n'
      · subst hc
        rw [past_cons, ih, withReturns_lineFeed, past_cons, past_cons]
        exact congrArg (past · _) p.withReturns_nextLine
      · rw [past_cons, ih, withReturns_cons hc, past_cons, pastOne, if_neg hc, pastOne, if_neg hc,
          keepsLines_withReturns]

end Position

/-! ## One reading -/

section

variable {words : List Char → Token.Body} {mode : NumericMode} {text : List Char} {r : Reading}

/-- Unless a line feed or a comment is ahead, the same is read whatever ends the lines. What is
passed over has no line feed in it. -/
theorem Grammar.Reads.withReturns (h : Reads words mode text r) (hline : text.head? ≠ some '\n')
    (hcomment : text.head? ≠ some '#') :
    ∃ passed rest, text = passed ++ rest ∧ '\n' ∉ passed ∧ r.consumed = passed.length ∧
      r ≠ .lineFeed ∧ Reads words mode (passed ++ Text.withReturns rest) r := by
  cases h with
  | @segment lead word rest found h =>
      rcases h.line_cases with ⟨rfl, -, -⟩ | hnone
      · exact absurd rfl hline
      · have hconsumed := h.consumed_reading
        rw [← List.length_append] at hconsumed
        refine ⟨_, _, rfl, hnone, hconsumed, ?_, .segment (h.replace (stopsAlike_withReturns _) ?_)⟩
        · exact segmentReading_ne_lineFeed fun hmem ↦ hnone (List.mem_append_left word hmem)
        · intro hhead
          exact absurd (by simp [hhead]) hcomment
  | unexpected rest h =>
      refine ⟨[], _, rfl, List.not_mem_nil, rfl, nofun, ?_⟩
      rw [withReturns_cons (fun hc ↦ hline (congrArg some hc))]
      exact .unexpected _ h
  | missing h =>
      refine ⟨_, _, rfl, h.lineFeed_notMem, List.length_append.symm, nofun, ?_⟩
      cases h with
      | identifier hrest =>
          have hrest' := hrest.replace (stopsAlike_withReturns _) goesOn_of_isNameChar
          exact .missing (.identifier hrest')
      | register hpassed => exact .missing (.register hpassed)
  | fault h =>
      exact ⟨_, _, rfl, h.lineFeed_notMem, List.length_append.symm, nofun,
        .fault (h.replace (stopsAlike_withReturns _))⟩
  | @float lead rest h =>
      refine ⟨_, _, rfl, h.lineFeed_notMem, rfl, nofun, .float ?_⟩
      by_cases hlead : lead = []
      · subst hlead
        obtain ⟨c, hc, -⟩ := h.opens rfl
        obtain ⟨rest, rfl⟩ := List.head?_eq_some_iff.mp hc
        rw [withReturns_cons (fun hc ↦ hline (congrArg some hc))]
        exact @FloatAhead.replace _ _ _ _ [c] (stopsAlike_withReturns rest) (fun _ ↦ nofun) h
      · exact @FloatAhead.replace _ _ _ _ [] (stopsAlike_withReturns rest) (absurd · hlead) h

end

/-! ## Runs -/

namespace Lexer

variable {l : Lexer}

/-- The lexer of the text with a carriage return in front of each line feed. -/
def withReturns (l : Lexer) : Lexer :=
  l.moved Position.withReturns [] (Text.withReturns l.rest)

theorem outcome?_withReturns (l : Lexer) (r : Reading) :
    l.withReturns.outcome? r = (l.outcome? r).map (Outcome.moved Position.withReturns) :=
  outcome?_moved l _ _ Position.keepsLines_withReturns r

theorem rest_withReturns {c : Char} {cs : List Char} (hrest : l.rest = c :: cs) (hline : c ≠ '\n') :
    l.withReturns.rest = c :: Text.withReturns cs := by
  rw [← withReturns_cons hline, ← hrest]
  rfl

/-- Unless a line feed or a comment is ahead, both lexers make the same step. -/
theorem step_withReturns {c : Char} {cs : List Char} (hrest : l.rest = c :: cs) (hline : c ≠ '\n')
    (hcomment : c ≠ '#') :
    Reading.next l.table l.mode c (Text.withReturns cs) = Reading.next l.table l.mode c cs ∧
      l.withReturns.after (Reading.next l.table l.mode c cs) =
        (l.after (Reading.next l.table l.mode c cs)).withReturns := by
  have hreads := Reading.reads_next l.table l.mode c cs
  generalize Reading.next l.table l.mode c cs = r at hreads ⊢
  obtain ⟨passed, rest, htext, hnone, hconsumed, hr, hreads'⟩ :=
    hreads.withReturns (by simpa using hline) (by simpa using hcomment)
  have hwhole : Text.withReturns l.rest = passed ++ Text.withReturns rest := by
    rw [hrest, htext, withReturns_append, withReturns_eq_self hnone]
  refine ⟨?_, ?_⟩
  · rw [← hwhole, hrest, withReturns_cons hline] at hreads'
    exact Reading.next_eq_of_reads hreads' rfl
  · rw [withReturns, after_moved l _ _ Position.keepsLines_withReturns hr, withReturns, rest_after,
      hwhole, hrest, htext, hconsumed, List.drop_left, List.drop_left]

theorem advance_withReturns (l : Lexer) (piece rest : List Char) :
    (l.advance piece rest []).withReturns =
      l.withReturns.advance (Text.withReturns piece) (Text.withReturns rest) [] := by
  simp [withReturns, Lexer.moved, advance, Position.withReturns_past]

theorem run_return {rest : List Char} (hrest : l.rest = '\r' :: rest) :
    l.run = (l.advance ['\r'] rest []).run :=
  run_segment (.blank rest (by decide) (by decide)) hrest

theorem run_withReturns_lineFeed {below : List Char} (hrest : l.rest = '\n' :: below) :
    l.withReturns.run = (l.after .lineFeed).withReturns.run := by
  have hafter : l.after .lineFeed = l.advance ['\n'] below [] :=
    after_segment (.lineFeed below) hrest
  have hreturn : l.withReturns.rest = '\r' :: '\n' :: Text.withReturns below := by
    rw [← withReturns_lineFeed, ← hrest]
    rfl
  have hbelow : (l.withReturns.advance ['\r'] ('\n' :: Text.withReturns below) []).run =
      ((l.withReturns.advance ['\r'] ('\n' :: Text.withReturns below) []).advance ['\n']
        (Text.withReturns below) []).run :=
    run_segment (.lineFeed _) rfl
  rw [run_return hreturn, hbelow, advance_advance, hafter, advance_withReturns]
  rfl

/-- The carriage return at the end of a comment is a part of it. -/
theorem run_withReturns_comment {cs : List Char} (hrest : l.rest = '#' :: cs) :
    l.withReturns.run = (l.after (Reading.next l.table l.mode '#' cs)).withReturns.run := by
  obtain ⟨body, rest, rfl, hrun⟩ := exists_maximalRun (· ≠ '\n') cs
  have hbody : '\n' ∉ '#' :: body := by
    simpa using hrun.notMem (c := '\n') (by decide)
  have hhead : Segment (Name.wordBody l.table) l.mode ('#' :: body) [] rest none := .comment hrun
  rw [Reading.next_segment hhead (by simp), after_segment hhead (by simpa using hrest)]
  rw [List.append_nil, segmentTokens, advance_withReturns, withReturns_eq_self hbody]
  have hwhole : l.withReturns.rest = '#' :: body ++ Text.withReturns rest := by
    change Text.withReturns l.rest = _
    rw [hrest, ← List.cons_append, withReturns_append, withReturns_eq_self hbody]
  cases rest with
  | nil =>
      have hsame : Segment (Name.wordBody l.withReturns.table) l.withReturns.mode ('#' :: body) []
          [] none :=
        hhead
      rw [run_segment hsame (by simpa using hwhole), List.append_nil]
      rfl
  | cons d below =>
      obtain rfl : d = '\n' := by simpa using hrun.stops
      -- The lexer with the returns has one comment where the other has a comment and a blank.
      have hlonger : Segment (Name.wordBody l.withReturns.table) l.withReturns.mode
          ('#' :: (body ++ ['\r'])) [] ('\n' :: Text.withReturns below) none := by
        refine .comment ⟨?_, noneAhead_cons.mpr (by decide)⟩
        intro c hc
        rcases List.mem_append.mp hc with hbody | hreturn
        · exact hrun.all c hbody
        · obtain rfl := List.mem_singleton.mp hreturn
          decide
      have hreturn := @run_return
        (l.withReturns.advance ('#' :: body) ('\r' :: '\n' :: Text.withReturns below) []) _ rfl
      rw [run_segment hlonger (by simpa using hwhole), withReturns_lineFeed, hreturn,
        advance_advance, List.append_nil]
      rfl

/-- A run over the text with the carriage returns is the run over the text without them. -/
theorem run_withReturns (l : Lexer) :
    l.withReturns.run = (l.run.1.moved Position.withReturns, l.run.2.withReturns) := by
  induction l using run.induct with
  | case1 l hrest =>
      rw [run_of_rest_eq_nil hrest]
      exact run_of_rest_eq_nil (congrArg Text.withReturns hrest)
  | case2 l c cs hrest outcome hstop =>
      have hline : c ≠ '\n' := by
        rintro rfl
        cases hstop
      have hcomment : c ≠ '#' := by
        rintro rfl
        cases hstop
      obtain ⟨hnext, hafter⟩ := step_withReturns hrest hline hcomment
      have hout := l.outcome?_withReturns (Reading.next l.table l.mode c cs)
      rw [hstop, ← hnext] at hout
      have hrun := run_of_outcome?_eq_some (rest_withReturns hrest hline) hout
      rw [run_of_outcome?_eq_some hrest hstop, ← hafter, ← hnext]
      exact hrun
  | case3 l c cs hrest hstop ih =>
      rw [run_of_outcome?_eq_none hrest hstop, ← ih]
      -- Only at a line feed and in a comment are the readings not the same.
      by_cases hline : c = '\n'
      · subst hline
        exact run_withReturns_lineFeed hrest
      by_cases hcomment : c = '#'
      · subst hcomment
        exact run_withReturns_comment hrest
      obtain ⟨hnext, hafter⟩ := step_withReturns hrest hline hcomment
      have hout := l.outcome?_withReturns (Reading.next l.table l.mode c cs)
      rw [hstop, ← hnext] at hout
      rw [← hafter, ← hnext]
      exact run_of_outcome?_eq_none (rest_withReturns hrest hline) hout

end Lexer

/-- Tokenizing does not depend on how the lines end: with a carriage return in front of each line
feed the result is the same, and each position has only its offset moved, by one for each line
above. -/
theorem tokenize_withReturns (table : InstructionTable) (mode : NumericMode) (file : Handle)
    (text : List Char) :
    tokenize table mode file (Text.withReturns text) =
      (tokenize table mode file text).moved Position.withReturns := by
  have hrun := Lexer.run_withReturns (Lexer.start table mode file text)
  have hstart : (Lexer.start table mode file text).withReturns =
      Lexer.start table mode file (Text.withReturns text) := by
    simp [Lexer.withReturns, Lexer.moved, Lexer.start, Position.withReturns, Position.origin]
  rw [hstart] at hrun
  rw [tokenize, tokenize, hrun]
  generalize (Lexer.start table mode file text).run = result
  obtain ⟨outcome, l⟩ := result
  cases outcome with
  | finished => simp [Outcome.moved, Tokenized.moved, Lexer.withReturns]
  | failed e => rfl
  | unsupported cause => rfl

example : tokenize .standard .unsigned 0 (Text.withReturns "ret\nret".toList) =
    .tokens [⟨.opcode 68, ⟨⟨0, 0, 0⟩, ⟨3, 0, 3⟩, 0⟩⟩, ⟨.opcode 68, ⟨⟨5, 1, 0⟩, ⟨8, 1, 3⟩, 0⟩⟩] := by
  decide +kernel

end AsmLexer
