import AsmLexer.Lexer.Run
import AsmLexer.Proofs.Place
import AsmLexer.Proofs.Reading
import AsmLexer.Proofs.WithinLine

/-!
# Cutting a text into segments

A text is cut by taking one segment after another from its front. A run of the lexer goes along the
cutting: it ends where no segment begins, with the tokens of the segments before that place.
-/

namespace AsmLexer

open Grammar

/-- The tokens of a segment that stands at a position: one, or none. -/
def segmentTokens (file : Handle) (p : Position) (lead word : List Char) :
    Option Token.Body → List Token
  | some body => [⟨body, ⟨p.past lead, p.past (lead ++ word), file⟩⟩]
  | none => []

/-- From the position `p` on, the text is cut into `pieces` that have these tokens, up to `rear`. -/
inductive Cut (words : List Char → Token.Body) (mode : NumericMode) (file : Handle) :
    (p : Position) → (text : List Char) → (pieces : List (List Char)) → (tokens : List Token) →
      (rear : List Char) → Prop
  | nil (p : Position) (rear : List Char) : Cut words mode file p rear [] [] rear
  | cons {p : Position} {lead word rest rear : List Char} {found : Option Token.Body}
      {pieces : List (List Char)} {tokens : List Token}
      (hhead : Segment words mode lead word rest found)
      (htail : Cut words mode file (p.past (lead ++ word)) rest pieces tokens rear) :
      Cut words mode file p (lead ++ word ++ rest) ((lead ++ word) :: pieces)
        (segmentTokens file p lead word found ++ tokens) rear

/-- No segment begins here, and what does is read as `r`. -/
def StopsAt (words : List Char → Token.Body) (mode : NumericMode) (rear : List Char)
    (r : Reading) : Prop :=
  Reads words mode rear r ∧ r.continues = false

namespace Cut

variable {words : List Char → Token.Body} {mode : NumericMode} {file : Handle} {p : Position}
  {text rear : List Char} {pieces : List (List Char)} {tokens : List Token}

theorem text_eq (h : Cut words mode file p text pieces tokens rear) :
    text = pieces.flatten ++ rear := by
  induction h with
  | nil => rfl
  | cons _ _ ih => rw [ih, List.flatten_cons, ← List.append_assoc]

theorem exists_stop (words : List Char → Token.Body) (mode : NumericMode) (file : Handle)
    (p : Position) (text : List Char) :
    ∃ pieces tokens rear, Cut words mode file p text pieces tokens rear ∧
      (rear = [] ∨ ∃ r, StopsAt words mode rear r) := by
  -- A segment is not empty, so the text behind it is shorter.
  induction hn : text.length using Nat.strongRecOn generalizing p text with
  | ind n ih =>
      cases text with
      | nil => exact ⟨[], [], [], .nil p [], .inl rfl⟩
      | cons c cs =>
          obtain ⟨r, hr⟩ := exists_reads words mode c cs
          by_cases hstop : r.continues = false
          · exact ⟨[], [], c :: cs, .nil p _, .inr ⟨r, hr, hstop⟩⟩
          generalize htext : c :: cs = text at hr hn
          cases hr with
          | @segment lead word rest found hhead =>
              have hpos := List.length_pos_iff.mpr hhead.append_ne_nil
              have hlt : rest.length < n := by
                rw [List.length_append] at hn
                omega
              obtain ⟨pieces, tokens, rear, htail, hrear⟩ :=
                ih rest.length hlt (p.past (lead ++ word)) rest rfl
              exact ⟨_, _, rear, .cons hhead htail, hrear⟩
          | _ => exact absurd rfl hstop

end Cut

/-! ## Uniqueness -/

theorem continues_segmentReading (lead word : List Char) (found : Option Token.Body) :
    (segmentReading lead word found).continues = true := by
  cases found with
  | some => rfl
  | none =>
      rw [segmentReading]
      split <;> rfl

theorem segmentReading_ne_lineFeed {lead word : List Char} {found : Option Token.Body}
    (h : '\n' ∉ lead) : segmentReading lead word found ≠ .lineFeed := by
  cases found with
  | some => simp [segmentReading]
  | none =>
      have hne : lead ≠ ['\n'] := by
        rintro rfl
        exact h List.mem_cons_self
      simp [segmentReading, hne]

theorem Grammar.Segment.consumed_reading {words : List Char → Token.Body} {mode : NumericMode}
    {lead word rest : List Char} {found : Option Token.Body}
    (h : Segment words mode lead word rest found) :
    (segmentReading lead word found).consumed = lead.length + word.length := by
  cases found with
  | some => rfl
  | none =>
      have hword : word = [] := h.word_eq_nil_iff.mpr rfl
      rw [segmentReading]
      split
      · rename_i hlead
        simp [hlead, hword, Reading.consumed]
      · simp [hword, Reading.consumed]

section Unique

variable {table : InstructionTable} {mode : NumericMode}

theorem Reading.eq_of_reads {text : List Char} {r₁ r₂ : Reading}
    (h₁ : Reads (Name.wordBody table) mode text r₁)
    (h₂ : Reads (Name.wordBody table) mode text r₂) : r₁ = r₂ := by
  obtain ⟨c, cs, htext⟩ := List.exists_cons_of_ne_nil h₁.ne_nil
  exact (next_eq_of_reads h₁ htext).symm.trans (next_eq_of_reads h₂ htext)

theorem Grammar.Segment.unique {lead₁ word₁ rest₁ lead₂ word₂ rest₂ : List Char}
    {found₁ found₂ : Option Token.Body}
    (h₁ : Segment (Name.wordBody table) mode lead₁ word₁ rest₁ found₁)
    (h₂ : Segment (Name.wordBody table) mode lead₂ word₂ rest₂ found₂)
    (htext : lead₁ ++ word₁ ++ rest₁ = lead₂ ++ word₂ ++ rest₂) :
    lead₁ = lead₂ ∧ word₁ = word₂ ∧ rest₁ = rest₂ ∧ found₁ = found₂ := by
  -- Both segments make the same reading, which tells how long their two parts are.
  have hreading := Reading.eq_of_reads (Reads.segment h₁) (htext ▸ Reads.segment h₂)
  have hconsumed := congrArg Reading.consumed hreading
  rw [h₁.consumed_reading, h₂.consumed_reading] at hconsumed
  have hlead : lead₁.length = lead₂.length ∧ found₁ = found₂ := by
    cases found₁ with
    | some body₁ =>
        cases found₂ with
        | some body₂ =>
            obtain ⟨rfl, hlength, -⟩ := Reading.token.inj hreading
            exact ⟨hlength, rfl⟩
        | none =>
            simp only [segmentReading] at hreading
            split at hreading <;> cases hreading
    | none =>
        cases found₂ with
        | some body₂ =>
            simp only [segmentReading] at hreading
            split at hreading <;> cases hreading
        | none =>
            have hword₁ : word₁ = [] := h₁.word_eq_nil_iff.mpr rfl
            have hword₂ : word₂ = [] := h₂.word_eq_nil_iff.mpr rfl
            subst hword₁ hword₂
            exact ⟨hconsumed, rfl⟩
  obtain ⟨hlength, rfl⟩ := hlead
  rw [List.append_assoc, List.append_assoc] at htext
  obtain ⟨rfl, hbehind⟩ := List.append_inj htext hlength
  obtain ⟨rfl, rfl⟩ := List.append_inj hbehind (by omega)
  exact ⟨rfl, rfl, rfl, rfl⟩

theorem Grammar.Segment.not_stop {lead word rest : List Char} {found : Option Token.Body}
    (h : Segment (Name.wordBody table) mode lead word rest found)
    (hstop : lead ++ word ++ rest = [] ∨
      ∃ r, StopsAt (Name.wordBody table) mode (lead ++ word ++ rest) r) : False := by
  rcases hstop with hnil | ⟨r, hreads, hr⟩
  · exact (Reads.segment h).ne_nil hnil
  · rw [Reading.eq_of_reads hreads (Reads.segment h), continues_segmentReading] at hr
    cases hr

/-- There is one way only to cut a text up to where no segment begins. -/
theorem Cut.unique {file : Handle} {p : Position} {text rear₁ rear₂ : List Char}
    {pieces₁ pieces₂ : List (List Char)} {tokens₁ tokens₂ : List Token}
    (h₁ : Cut (Name.wordBody table) mode file p text pieces₁ tokens₁ rear₁)
    (h₂ : Cut (Name.wordBody table) mode file p text pieces₂ tokens₂ rear₂)
    (hstop₁ : rear₁ = [] ∨ ∃ r, StopsAt (Name.wordBody table) mode rear₁ r)
    (hstop₂ : rear₂ = [] ∨ ∃ r, StopsAt (Name.wordBody table) mode rear₂ r) :
    pieces₁ = pieces₂ ∧ tokens₁ = tokens₂ ∧ rear₁ = rear₂ := by
  -- The first cutting is followed; the second one can only begin in the same way.
  induction h₁ generalizing pieces₂ tokens₂ with
  | nil p rear =>
      cases h₂ with
      | nil => exact ⟨rfl, rfl, rfl⟩
      | cons hhead => exact (hhead.not_stop hstop₁).elim
  | @cons p lead word rest rear found pieces tokens hhead htail ih =>
      generalize htext : lead ++ word ++ rest = text at h₂
      cases h₂ with
      | nil =>
          subst htext
          exact (hhead.not_stop hstop₂).elim
      | cons hhead' htail' =>
          obtain ⟨rfl, rfl, rfl, rfl⟩ := hhead.unique hhead' htext
          obtain ⟨rfl, rfl, rfl⟩ := ih htail' hstop₁
          exact ⟨rfl, rfl, rfl⟩

end Unique

/-! ## Runs -/

namespace Lexer

/-- The lexer further on: past `piece`, with more tokens. -/
def advance (l : Lexer) (piece rear : List Char) (tokens : List Token) : Lexer :=
  { l with
    rest := rear
    position := l.position.past piece
    store := ⟨l.store.tokens ++ tokens.toArray⟩ }

@[simp] theorem advance_nil (l : Lexer) : l.advance [] l.rest [] = l := by
  simp [advance]

theorem advance_advance (l : Lexer) (front back rest rear : List Char) (ts us : List Token) :
    (l.advance front rest ts).advance back rear us = l.advance (front ++ back) rear (ts ++ us) := by
  simp [advance, Position.past_append]

@[simp] theorem toList_store_advance (l : Lexer) (piece rear : List Char) (tokens : List Token) :
    (l.advance piece rear tokens).store.toList = l.store.toList ++ tokens := by
  simp [advance, TokenStore.toList]

variable {l : Lexer}

theorem outcome?_segmentReading (lead word : List Char) (found : Option Token.Body) :
    l.outcome? (segmentReading lead word found) = none :=
  (outcome?_eq_none_iff ..).mpr (continues_segmentReading lead word found)

theorem after_segment {lead word rest : List Char} {found : Option Token.Body}
    (h : Segment (Name.wordBody l.table) l.mode lead word rest found)
    (hrest : l.rest = lead ++ word ++ rest) :
    l.after (segmentReading lead word found) =
      l.advance (lead ++ word) rest (segmentTokens l.file l.position lead word found) := by
  have hdrop : l.rest.drop (lead.length + word.length) = rest := by
    rw [hrest, ← List.length_append, List.drop_left]
  rcases h.line_cases with ⟨rfl, rfl, rfl⟩ | hline
  · simp [segmentReading, after, advance, segmentTokens, hrest, Position.pastOne]
  · have hlead : '\n' ∉ lead := fun hmem ↦ hline (List.mem_append_left word hmem)
    have hpast := l.position.past_eq_right hline
    cases found with
    | some body =>
        simp [segmentReading, after, advance, segmentTokens, hdrop, hpast,
          l.position.past_eq_right hlead, Position.right_right, TokenStore.push]
    | none =>
        have hword : word = [] := h.word_eq_nil_iff.mpr rfl
        subst hword
        have hne : lead ≠ ['\n'] := by
          rintro rfl
          exact hlead (List.mem_singleton.mpr rfl)
        have hpast' := l.position.past_eq_right hlead
        simp [segmentReading, hne, after, Reading.consumed, advance, segmentTokens, hrest, hpast']

theorem run_segment {lead word rest : List Char} {found : Option Token.Body}
    (h : Segment (Name.wordBody l.table) l.mode lead word rest found)
    (hrest : l.rest = lead ++ word ++ rest) :
    l.run =
      (l.advance (lead ++ word) rest (segmentTokens l.file l.position lead word found)).run := by
  obtain ⟨c, cs, htext⟩ := List.exists_cons_of_ne_nil (Reads.segment h).ne_nil
  have hnext := Reading.next_segment h htext
  have hstop : l.outcome? (Reading.next l.table l.mode c cs) = none := by
    rw [hnext, outcome?_segmentReading]
  rw [run_of_outcome?_eq_none (hrest.trans htext) hstop, hnext, after_segment h hrest]

theorem run_stop {r : Reading} (h : StopsAt (Name.wordBody l.table) l.mode l.rest r) :
    ∃ outcome, l.outcome? r = some outcome ∧ l.run = (outcome, l.after r) := by
  obtain ⟨hreads, hstop⟩ := h
  obtain ⟨c, cs, hrest⟩ := List.exists_cons_of_ne_nil hreads.ne_nil
  have hnext := Reading.next_eq_of_reads hreads hrest
  cases houtcome : l.outcome? r with
  | none => simp [(outcome?_eq_none_iff l r).mp houtcome] at hstop
  | some outcome =>
      rw [← hnext] at houtcome
      exact ⟨outcome, rfl, hnext ▸ run_of_outcome?_eq_some hrest houtcome⟩

theorem run_cut {pieces : List (List Char)} {tokens : List Token} {rear : List Char}
    (h : Cut (Name.wordBody l.table) l.mode l.file l.position l.rest pieces tokens rear) :
    l.run = (l.advance pieces.flatten rear tokens).run := by
  generalize hwords : Name.wordBody l.table = words at h
  generalize hmode : l.mode = mode at h
  generalize hfile : l.file = file at h
  generalize hposition : l.position = p at h
  generalize hrest : l.rest = text at h
  induction h generalizing l with
  | nil p rear =>
      subst hrest
      simp
  | @cons p lead word rest rear found pieces tokens hhead htail ih =>
      subst hwords hmode hfile hposition
      have hrun := @ih (l.advance (lead ++ word) rest
        (segmentTokens l.file l.position lead word found)) rfl rfl rfl rfl rfl
      rw [run_segment hhead hrest, hrun, advance_advance, List.flatten_cons]

section

variable {pieces : List (List Char)} {tokens : List Token} {rear : List Char}

theorem run_cut_nil
    (h : Cut (Name.wordBody l.table) l.mode l.file l.position l.rest pieces tokens []) :
    l.run = (.finished, l.advance pieces.flatten [] tokens) := by
  rw [run_cut h, run_of_rest_eq_nil rfl]

theorem run_cut_stop
    (h : Cut (Name.wordBody l.table) l.mode l.file l.position l.rest pieces tokens rear)
    {r : Reading} (hstop : StopsAt (Name.wordBody l.table) l.mode rear r) :
    ∃ outcome, (l.advance pieces.flatten rear tokens).outcome? r = some outcome ∧
      l.run = (outcome, (l.advance pieces.flatten rear tokens).after r) := by
  rw [run_cut h]
  exact @run_stop (l.advance pieces.flatten rear tokens) r hstop

end

/-- A run goes along the cutting of its text to the end, or to a fault. -/
theorem run_cases (l : Lexer) :
    ∃ pieces tokens rear,
      Cut (Name.wordBody l.table) l.mode l.file l.position l.rest pieces tokens rear ∧
        ((rear = [] ∧ l.run = (.finished, l.advance pieces.flatten [] tokens)) ∨
          ∃ r outcome, StopsAt (Name.wordBody l.table) l.mode rear r ∧
            (l.advance pieces.flatten rear tokens).outcome? r = some outcome ∧
              l.run = (outcome, (l.advance pieces.flatten rear tokens).after r)) := by
  obtain ⟨pieces, tokens, rear, hcut, hrear⟩ :=
    Cut.exists_stop (Name.wordBody l.table) l.mode l.file l.position l.rest
  refine ⟨pieces, tokens, rear, hcut, ?_⟩
  rcases hrear with rfl | ⟨r, hstop⟩
  · exact .inl ⟨rfl, run_cut_nil hcut⟩
  · obtain ⟨outcome, houtcome, hrun⟩ := run_cut_stop hcut hstop
    exact .inr ⟨r, outcome, hstop, houtcome, hrun⟩

end Lexer

end AsmLexer
