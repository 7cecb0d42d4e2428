import AsmLexer.Proofs.Exposure
import AsmLexer.Proofs.Stops

/-!
# Progress

A run moves the lexer forward, or it leaves it stuck: at the end of the text, in front of a
character that begins nothing, or in front of a number in float mode. A lexer that is stuck stays
so. Each character can be passed only once, so a session has come to rest after as many runs as its
text has characters.
-/

namespace AsmLexer.Lexer

open Grammar Position

/-- The lexer cannot go on, and says so with this outcome. -/
inductive Stuck (l : Lexer) : Outcome → Prop
  | finished (hrest : l.rest = []) : Stuck l .finished
  | unexpected {c : Char} {rest : List Char} (hrest : l.rest = c :: rest)
      (h : Unexpected l.mode c) :
      Stuck l (.failed (.unexpected (String.singleton c) l.position))
  | float (hmode : l.mode = .float) (h : FloatAhead l.mode [] l.rest) :
      Stuck l (.unsupported (.floatLiteral l.position))

/-- The run from `l` comes to a float literal, which has the mark `lead` in front. -/
def MeetsFloat (l : Lexer) (lead : List Char) : Prop :=
  ∃ pieces tokens rest,
    Cut (Name.wordBody l.table) l.mode l.file l.position l.rest pieces tokens (lead ++ rest) ∧
      FloatAhead l.mode lead rest

variable {l m : Lexer} {outcome : Outcome}

/-! ## Stuck lexers -/

theorem Stuck.run_eq (h : Stuck l outcome) : l.run = (outcome, l) := by
  have hnone {rear : List Char} (hrest : l.rest = rear) :
      Cut (Name.wordBody l.table) l.mode l.file l.position l.rest [] [] rear := by
    rw [hrest]
    exact .nil ..
  cases h with
  | finished hrest => exact run_of_rest_eq_nil hrest
  | unexpected hrest h =>
      have hrun := (RunsTo.unexpected (hnone hrest) h).run_eq
      rw [← hrest] at hrun
      simpa using hrun
  | float _ h =>
      have hrun := (@RunsTo.float l [] [] [] l.rest (hnone rfl) h).run_eq
      simpa using hrun

theorem Stuck.runs_eq (h : Stuck l outcome) (k : Nat) : l.runs k = l := by
  induction k with
  | zero => rfl
  | succ k ih => rw [runs, ih, h.run_eq]

theorem mode_eq_of_floatAhead {mode : NumericMode} {rest : List Char}
    (h : FloatAhead mode [] rest) : mode = .float := by
  have hmark := h.mark
  cases hmark with
  | mode hmode => exact hmode

/-! ## How a run leaves the lexer -/

theorem RunsTo.stuck_of_finished (h : RunsTo l .finished m) : Stuck m .finished := by
  cases h with
  | finished => exact .finished rfl

theorem RunsTo.stuck_of_unexpected {what : String} {p : Position}
    (h : RunsTo l (.failed (.unexpected what p)) m) :
    Stuck m (.failed (.unexpected what p)) := by
  cases h with
  | unexpected _ h => exact .unexpected rfl h

/-- A run that has passed over nothing has found the lexer stuck. -/
theorem RunsTo.stuck_or_lt (h : RunsTo l outcome m) :
    Stuck l outcome ∨ l.position.offset < m.position.offset := by
  have hpassed {passed : List Char} (hne : passed ≠ []) :
      l.position.offset < (l.position.past passed).offset := by
    have hpos := List.length_pos_iff.mpr hne
    rw [offset_past]
    omega
  cases h with
  | @finished pieces _ hcut =>
      by_cases hnil : pieces.flatten = []
      · exact .inl (.finished (by rw [hcut.text_eq, hnil, List.append_nil]))
      · exact .inr (hpassed hnil)
  | @unexpected pieces _ c rest hcut h =>
      by_cases hnil : pieces.flatten = []
      · rw [hnil, past_nil]
        exact .inl (.unexpected (by rw [hcut.text_eq, hnil, List.nil_append]) h)
      · exact .inr (hpassed hnil)
  | missing _ h => exact .inr (hpassed (List.append_ne_nil_of_right_ne_nil _ h.append_ne_nil))
  | fault _ h => exact .inr (hpassed (List.append_ne_nil_of_right_ne_nil _ h.append_ne_nil))
  | @float pieces tokens lead rest hcut h =>
      by_cases hnil : pieces.flatten ++ lead = []
      · obtain ⟨hpieces, rfl⟩ := List.append_eq_nil_iff.mp hnil
        have hrest : l.rest = rest := by
          rw [hcut.text_eq, hpieces, List.nil_append, List.nil_append]
        rw [hpieces, past_nil, past_nil]
        exact .inl (.float (mode_eq_of_floatAhead h) (hrest ▸ h))
      · exact .inr (hpassed hnil)

theorem RunsTo.meetsFloat {cause : Unsupported} (h : RunsTo l (.unsupported cause) m) :
    l.MeetsFloat ['0', 'f'] ∨ l.MeetsFloat [] := by
  cases h with
  | float hcut h =>
      have hmark := h.mark
      cases hmark with
      | letter => exact .inl ⟨_, _, _, hcut, h⟩
      | mode => exact .inr ⟨_, _, _, hcut, h⟩

theorem MeetsFloat.exists_runsTo {lead : List Char} (h : l.MeetsFloat lead) :
    ∃ (pieces : List (List Char)) (tokens : List Token) (rest : List Char),
      FloatAhead l.mode lead rest ∧
        RunsTo l (.unsupported (.floatLiteral ((l.position.past pieces.flatten).past lead)))
          (l.advance (pieces.flatten ++ lead) rest tokens) := by
  obtain ⟨pieces, tokens, rest, hcut, hfloat⟩ := h
  exact ⟨pieces, tokens, rest, hfloat, .float hcut hfloat⟩

theorem MeetsFloat.run_unsupported {lead : List Char} (h : l.MeetsFloat lead) :
    ∃ cause, l.run.1 = .unsupported cause := by
  obtain ⟨_, _, _, -, hrun⟩ := h.exists_runsTo
  exact ⟨_, congrArg Prod.fst hrun.run_eq⟩

theorem MeetsFloat.stuck (h : l.MeetsFloat []) : Stuck l.run.2 l.run.1 := by
  obtain ⟨pieces, tokens, rest, hfloat, hrun⟩ := h.exists_runsTo
  rw [hrun.run_eq, List.append_nil]
  exact .float (mode_eq_of_floatAhead hfloat) hfloat

theorem MeetsFloat.lt_of_mark (h : l.MeetsFloat ['0', 'f']) :
    l.position.offset < l.run.2.position.offset := by
  obtain ⟨pieces, tokens, rest, -, hrun⟩ := h.exists_runsTo
  rw [hrun.run_eq]
  simp only [advance, offset_past, List.length_append, List.length_cons]
  omega

theorem Reaches.offset_le (h : Reaches l m) : l.position.offset ≤ m.position.offset := by
  refine h.invariant (P := fun k ↦ l.position.offset ≤ k.position.offset) (Int.le_refl _) ?_ ?_
  · intro k lead word rest found _ hk _ _
    simp only [advance, offset_past]
    omega
  · intro k passed rest hk _
    simp only [advance, offset_past]
    omega

/-- How far a run gets in a text of this length, and when no later run gets any further. -/
structure Progress (length : Nat) (l : Lexer) : Prop where
  le_offset : l.position.offset ≤ l.run.2.position.offset
  le_length : l.run.2.position.offset ≤ length
  finished : l.run.1 = .finished → l.run.2.position.offset = length
  lt_of_failed : ∀ e, l.run.1 = .failed e → (∀ what p, e ≠ .unexpected what p) →
    l.position.offset < l.run.2.position.offset
  unsupported_iff : (∃ cause, l.run.1 = .unsupported cause) ↔
    l.MeetsFloat ['0', 'f'] ∨ l.MeetsFloat []
  lt_of_mark : l.MeetsFloat ['0', 'f'] → l.position.offset < l.run.2.position.offset
  rests : (l.run.1 = .finished ∨ (∃ what p, l.run.1 = .failed (.unexpected what p)) ∨
    l.MeetsFloat []) → ∀ k, (l.run.2.runs k).run = l.run

variable {text : List Char}

theorem StandsIn.offset_le (h : StandsIn text l) : l.position.offset ≤ text.length := by
  have hlength := h.offset_add_length
  omega

theorem StandsIn.stuck_of_le (h : StandsIn text l) (hle : text.length ≤ l.position.offset) :
    Stuck l .finished := by
  have hlength := h.offset_add_length
  exact .finished (List.length_eq_zero_iff.mp (by omega))

theorem Stuck.rests (h : Stuck l.run.2 l.run.1) (k : Nat) : (l.run.2.runs k).run = l.run := by
  rw [h.runs_eq, h.run_eq]

theorem StandsIn.progress (h : StandsIn text l) : l.Progress text.length := by
  have hruns := l.runsTo_run
  have hafter := h.of_reaches l.reaches_run
  refine ⟨l.reaches_run.offset_le, hafter.offset_le, ?_, ?_, ?_, MeetsFloat.lt_of_mark, ?_⟩
  · intro hfinished
    rw [hfinished] at hruns
    cases hruns.stuck_of_finished with
    | finished hrest =>
        have hlength := hafter.offset_add_length
        rw [hrest] at hlength
        simpa using hlength
  · intro e hfailed hne
    rw [hfailed] at hruns
    rcases hruns.stuck_or_lt with hstuck | hlt
    · cases hstuck with
      | unexpected => exact absurd rfl (hne _ _)
    · exact hlt
  · constructor
    · rintro ⟨cause, hcause⟩
      rw [hcause] at hruns
      exact hruns.meetsFloat
    · rintro (hmark | hnone)
      · exact hmark.run_unsupported
      · exact hnone.run_unsupported
  · rintro (hfinished | ⟨what, p, hfailed⟩ | hfloat)
    · rw [hfinished] at hruns
      exact Stuck.rests (hfinished ▸ hruns.stuck_of_finished)
    · rw [hfailed] at hruns
      exact Stuck.rests (hfailed ▸ hruns.stuck_of_unexpected)
    · exact hfloat.stuck.rests

/-! ## Whole sessions -/

/-- Each run takes at least one character, until the lexer is stuck. -/
theorem exists_stuck_or_le (hnonneg : 0 ≤ l.position.offset) (k : Nat) :
    (∃ outcome, Stuck (l.runs k) outcome) ∨ (k : Int) ≤ (l.runs k).position.offset := by
  induction k with
  | zero => exact .inr hnonneg
  | succ k ih =>
      rcases ih with ⟨outcome, hstuck⟩ | hle
      · rw [runs, hstuck.run_eq]
        exact .inl ⟨outcome, hstuck⟩
      · rcases (l.runs k).runsTo_run.stuck_or_lt with hstuck | hlt
        · rw [runs, hstuck.run_eq]
          exact .inl ⟨_, hstuck⟩
        · refine .inr ?_
          rw [runs]
          omega

/-- What each run of a session does, and how the session ends: after as many runs as there are
characters the lexer is stuck, and whatever is run from then on gives the same outcome and changes
nothing. -/
theorem progress_runs (table : InstructionTable) (mode : NumericMode) (file : Handle)
    (text : List Char) :
    (∀ k, ((start table mode file text).runs k).Progress text.length) ∧
      ∃ outcome, Stuck ((start table mode file text).runs text.length) outcome ∧
        ∀ k, ((start table mode file text).runs (text.length + k)).run =
          (outcome, (start table mode file text).runs text.length) := by
  have hstands (k : Nat) : StandsIn text ((start table mode file text).runs k) :=
    (standsIn_start table mode file text).of_reaches (reaches_runs _ k)
  refine ⟨fun k ↦ (hstands k).progress, ?_⟩
  have hstuck : ∃ outcome, Stuck ((start table mode file text).runs text.length) outcome := by
    rcases @exists_stuck_or_le (start table mode file text) (Int.le_refl 0) text.length with
      hstuck | hle
    · exact hstuck
    · exact ⟨_, (hstands text.length).stuck_of_le hle⟩
  obtain ⟨outcome, hstuck⟩ := hstuck
  refine ⟨outcome, hstuck, fun k ↦ ?_⟩
  rw [runs_add, hstuck.runs_eq, hstuck.run_eq]

/-- The first run is stopped by a float literal, and has its mark behind it. -/
theorem progress_at_mark :
    (start .standard .unsigned 0 "0f%;".toList).MeetsFloat ['0', 'f'] ∧
      (start .standard .unsigned 0 "0f%;".toList).position.offset <
        (start .standard .unsigned 0 "0f%;".toList).run.2.position.offset := by
  have hmeets : (start .standard .unsigned 0 "0f%;".toList).MeetsFloat ['0', 'f'] :=
    ⟨[], [], ['%', ';'], .nil .., ⟨.letter _, nofun⟩⟩
  obtain ⟨hprogress, -⟩ := progress_runs .standard .unsigned 0 "0f%;".toList
  exact ⟨hmeets, (hprogress 0).lt_of_mark hmeets⟩

end AsmLexer.Lexer
