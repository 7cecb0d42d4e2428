import AsmLexer.Proofs.Stops

/-!
# Text that is cut off

What stands behind a segment never helps to make it one: it could only make the segment longer. So
a cutting stays a cutting when the text ends behind it. Main statement: what a run has found when
it comes to the step that stops it are the tokens of the text in front of that step.
-/

namespace AsmLexer

open Text Grammar Position

namespace Text

variable {p : Char → Bool} {run rest more : List Char}

theorem NoneAhead.of_append (h : NoneAhead p (rest ++ more)) : NoneAhead p rest := by
  intro c hc
  apply h c
  rw [List.head?_append, Option.mem_def.mp hc]
  rfl

theorem MaximalRun.of_append (h : MaximalRun p run (rest ++ more)) : MaximalRun p run rest :=
  ⟨h.all, h.stops.of_append⟩

end Text

theorem Literal.Decimal.of_append {limit : Nat} {digits rest more : List Char}
    (h : Decimal limit digits (rest ++ more)) : Decimal limit digits rest :=
  ⟨h.run.of_append, h.ne_nil, h.le⟩

namespace Grammar

variable {mode : NumericMode} {text more : List Char}

/-- The front part of a text begins with no mark if the text does not. -/
theorem Unmarked.of_append (h : Unmarked (text ++ more)) : Unmarked text := by
  intro c tail htext
  apply h c (tail ++ more)
  rw [htext]
  rfl

theorem Mark.of_append {letter : Char} {kind : NumericMode} {mark : List Char}
    (h : Mark letter kind mode mark (text ++ more)) : Mark letter kind mode mark text := by
  cases h with
  | letter => exact .letter _
  | mode hmode htext => exact .mode hmode htext.of_append

theorem Segment.of_append {words : List Char → Token.Body} {lead word rest : List Char}
    {found : Option Token.Body} (h : Segment words mode lead word (rest ++ more) found) :
    Segment words mode lead word rest found := by
  cases h with
  | lineFeed => exact .lineFeed _
  | blank _ hspace hline => exact .blank _ hspace hline
  | comment hrun => exact .comment hrun.of_append
  | comma => exact .comma _
  | colon => exact .colon _
  | directive hrun hd => exact .directive hrun.of_append hd
  | word hrun hne => exact .word hrun.of_append hne
  | general hdigit hrest => exact .general hdigit hrest.of_append
  | named _ hr => exact .named _ hr
  | hex hrun hne hle => exact .hex hrun.of_append hne hle
  | binary hrun hne hle => exact .binary hrun.of_append hne hle
  | unsigned hmark hnumber =>
      rw [← List.append_assoc] at hmark
      exact .unsigned hmark.of_append hnumber.of_append
  | signed negative hmark hnumber =>
      rw [← List.append_assoc] at hmark
      exact .signed negative hmark.of_append hnumber.of_append

end Grammar

theorem Cut.of_append {words : List Char → Token.Body} {mode : NumericMode} {file : Handle}
    {p : Position} {text rear more : List Char} {pieces : List (List Char)} {tokens : List Token}
    (h : Cut words mode file p text pieces tokens (rear ++ more)) :
    Cut words mode file p (pieces.flatten ++ rear) pieces tokens rear := by
  generalize hwhole : rear ++ more = whole at h
  induction h with
  | nil p => exact .nil p rear
  | @cons p lead word rest _ found pieces tokens hhead htail ih =>
      have hrest : rest = pieces.flatten ++ rear ++ more := by
        rw [htail.text_eq, ← hwhole, List.append_assoc]
      rw [hrest] at hhead
      rw [List.flatten_cons, List.append_assoc]
      exact .cons hhead.of_append (ih hwhole)

/-- The tokens of a cutting are those of the text that it takes. -/
theorem Cut.tokenize_flatten {table : InstructionTable} {mode : NumericMode} {file : Handle}
    {text rear : List Char} {pieces : List (List Char)} {tokens : List Token}
    (h : Cut (Name.wordBody table) mode file .origin text pieces tokens rear) :
    tokenize table mode file pieces.flatten = .tokens tokens := by
  have hfront : Cut (Name.wordBody table) mode file .origin (pieces.flatten ++ []) pieces tokens
      [] := Cut.of_append h
  rw [List.append_nil] at hfront
  exact tokenize_eq_of_yields (.tokens hfront)

namespace Lexer

variable {l m k : Lexer} {outcome other : Outcome}

/-- There is one step only that stops a run. -/
theorem StopsIn.unique (h : StopsIn l m outcome) (h' : StopsIn l k other) :
    m = k ∧ outcome = other := by
  induction h with
  | here hrest hstop =>
      cases h' with
      | here hrest' hstop' =>
          obtain ⟨rfl, rfl⟩ := List.cons.inj (hrest.symm.trans hrest')
          exact ⟨rfl, Option.some.inj (hstop.symm.trans hstop')⟩
      | later hrest' hgo =>
          obtain ⟨rfl, rfl⟩ := List.cons.inj (hrest.symm.trans hrest')
          rw [hstop] at hgo
          cases hgo
  | later hrest hgo _ ih =>
      cases h' with
      | here hrest' hstop' =>
          obtain ⟨rfl, rfl⟩ := List.cons.inj (hrest.symm.trans hrest')
          rw [hgo] at hstop'
          cases hstop'
      | later hrest' _ hlater =>
          obtain ⟨rfl, rfl⟩ := List.cons.inj (hrest.symm.trans hrest')
          exact ih hlater

/-- Nothing is stored in the step that stops a run. -/
theorem store_after_of_stop {r : Reading} (hstop : r.continues = false) :
    (l.after r).store = l.store := by
  cases r with
  | token => cases hstop
  | _ => rfl

/-- A run that does not come to the end of its text is stopped by one step. What it has found are
just the tokens that the text in front of this step has by itself, in the same mode. -/
theorem tokenize_take_of_stop (table : InstructionTable) (mode : NumericMode) (file : Handle)
    (text : List Char) (hrun : (start table mode file text).run.1 ≠ .finished) :
    ∃ (m : Lexer) (s : Nat),
      (start table mode file text).StopsIn m (start table mode file text).run.1 ∧
        (∀ k outcome, (start table mode file text).StopsIn k outcome → k = m) ∧
          m.position.offset = s ∧ s < text.length ∧
            tokenize table mode file (text.take s) =
              .tokens (start table mode file text).run.2.store.toList := by
  obtain ⟨pieces, tokens, rear, hcut, hcase⟩ := (start table mode file text).run_cases
  rcases hcase with ⟨-, hfinished⟩ | ⟨r, outcome, hstop, hout, hstopped⟩
  · rw [hfinished] at hrun
    exact absurd rfl hrun
  have hlast : (start table mode file text).StopsIn
      ((start table mode file text).advance pieces.flatten rear tokens) outcome := by
    obtain ⟨c, cs, hrear⟩ := List.exists_cons_of_ne_nil hstop.1.ne_nil
    refine stopsIn_of_cut hcut (.here hrear ?_)
    rw [← hout]
    exact congrArg _ (Reading.next_eq_of_reads hstop.1 hrear)
  have htext : text = pieces.flatten ++ rear := hcut.text_eq
  refine ⟨(start table mode file text).advance pieces.flatten rear tokens, pieces.flatten.length,
    ?_, ?_, offset_past_origin pieces.flatten, ?_, ?_⟩
  · rw [hstopped]
    exact hlast
  · intro k other hk
    exact (hk.unique hlast).1
  · have hpos := List.length_pos_iff.mpr hstop.1.ne_nil
    rw [htext, List.length_append]
    omega
  · have hstore : (start table mode file text).run.2.store.toList = tokens := by
      rw [hstopped, store_after_of_stop hstop.2]
      exact toList_store_advance ..
    rw [hstore, htext, List.take_left]
    exact hcut.tokenize_flatten

/-- A float literal stops the run right behind a register, which is read in the same way where the
text ends. -/
theorem tokenize_take_of_stop_float :
    ∃ (m : Lexer) (s : Nat),
      (start .standard .signed 0 "ld $rsp0f1".toList).StopsIn m
          (.unsupported (.floatLiteral ⟨9, 0, 9⟩)) ∧
        m.position.offset = s ∧ s < 10 ∧
          tokenize .standard .signed 0 ("ld $rsp0f1".toList.take s) =
            .tokens [⟨.opcode 2, ⟨⟨0, 0, 0⟩, ⟨2, 0, 2⟩, 0⟩⟩,
              ⟨.register 0, ⟨⟨4, 0, 4⟩, ⟨7, 0, 7⟩, 0⟩⟩] := by
  have houtcome : (start .standard .signed 0 "ld $rsp0f1".toList).run.1 =
      .unsupported (.floatLiteral ⟨9, 0, 9⟩) := by
    decide +kernel
  have hstore : (start .standard .signed 0 "ld $rsp0f1".toList).run.2.store.toList =
      [⟨.opcode 2, ⟨⟨0, 0, 0⟩, ⟨2, 0, 2⟩, 0⟩⟩, ⟨.register 0, ⟨⟨4, 0, 4⟩, ⟨7, 0, 7⟩, 0⟩⟩] := by
    decide +kernel
  obtain ⟨m, s, hstops, -, hoffset, hlt, htokens⟩ :=
    tokenize_take_of_stop .standard .signed 0 "ld $rsp0f1".toList (by rw [houtcome]; nofun)
  rw [houtcome] at hstops
  rw [hstore] at htokens
  exact ⟨m, s, hstops, hoffset, hlt, htokens⟩

end Lexer

end AsmLexer
