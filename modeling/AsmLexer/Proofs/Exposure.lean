import AsmLexer.Proofs.Results
import AsmLexer.Proofs.Session

/-!
# The positions that a session shows

A lexer shows where it stands and where its tokens are, and the outcome of a run shows where it
stopped. However often the lexer has been run before, all of these are places in its text.
-/

namespace AsmLexer

open Grammar Position

/-- The token covers a piece of the text, which lies within a line and is not empty. -/
inductive Token.Covers (text : List Char) (file : Handle) : Token → Prop
  | intro {front word rear : List Char} (body : Token.Body) (htext : text = front ++ word ++ rear)
      (hne : word ≠ []) (hline : '\n' ∉ word) :
      Covers text file ⟨body, ⟨origin.past front, origin.past (front ++ word), file⟩⟩

theorem Token.Covers.isPlace {text : List Char} {file : Handle} {t : Token}
    (h : t.Covers text file) : IsPlace text t.range.start ∧ IsPlace text t.range.stop := by
  obtain @⟨front, word, rear, body, htext, -, -⟩ := h
  refine ⟨⟨front, word ++ rear, ?_, rfl⟩, ⟨front ++ word, rear, htext, rfl⟩⟩
  rw [htext, List.append_assoc]

namespace Lexer

/-- The lexer stands in front of what is left of the text. -/
def StandsIn (text : List Char) (l : Lexer) : Prop :=
  ∃ front, text = front ++ l.rest ∧ l.position = origin.past front

variable {l m : Lexer} {text : List Char} {words : List Char → Token.Body}

theorem standsIn_start (table : InstructionTable) (mode : NumericMode) (file : Handle)
    (text : List Char) : StandsIn text (start table mode file text) :=
  ⟨[], rfl, rfl⟩

theorem StandsIn.advance {passed rest : List Char} {tokens : List Token} (h : StandsIn text l)
    (hrest : l.rest = passed ++ rest) : StandsIn text (l.advance passed rest tokens) := by
  obtain ⟨front, htext, hposition⟩ := h
  refine ⟨front ++ passed, ?_, ?_⟩
  · rw [htext, hrest, List.append_assoc]
    rfl
  · rw [past_append, ← hposition]
    rfl

theorem StandsIn.isPlace_past {passed rest : List Char} (h : StandsIn text l)
    (hrest : l.rest = passed ++ rest) : IsPlace text (l.position.past passed) := by
  obtain ⟨front, htext, hposition⟩ := h
  refine ⟨front ++ passed, rest, ?_, ?_⟩
  · rw [htext, hrest, List.append_assoc]
  · rw [hposition, past_append]

theorem StandsIn.isPlace (h : StandsIn text l) : IsPlace text l.position :=
  h.isPlace_past (List.nil_append _).symm

theorem StandsIn.drop_offset (h : StandsIn text l) :
    text.drop l.position.offset.toNat = l.rest := by
  obtain ⟨front, rfl, hposition⟩ := h
  rw [hposition, offset_past_origin, Int.toNat_natCast, List.drop_left]

theorem StandsIn.offset_add_length (h : StandsIn text l) :
    l.position.offset + l.rest.length = text.length := by
  obtain ⟨front, rfl, hposition⟩ := h
  rw [hposition, offset_past_origin, List.length_append]
  omega

theorem StandsIn.of_reaches (hreach : Reaches l m) (h : StandsIn text l) : StandsIn text m := by
  refine hreach.invariant h ?_ ?_
  · intro k lead word rest found _ hk _ hrest
    exact hk.advance hrest
  · intro k passed rest hk hrest
    exact hk.advance hrest

/-! ## Tokens -/

theorem covers_segmentTokens {lead word rest : List Char} {found : Option Token.Body}
    (hl : StandsIn text l) (h : Segment words l.mode lead word rest found)
    (hrest : l.rest = lead ++ word ++ rest) :
    ∀ t ∈ segmentTokens l.file l.position lead word found, t.Covers text l.file := by
  intro t ht
  cases found with
  | none => cases ht
  | some body =>
      obtain rfl := List.mem_singleton.mp ht
      obtain ⟨front, htext, hposition⟩ := hl
      have hne : word ≠ [] := by
        intro hword
        cases h.word_eq_nil_iff.mp hword
      have hline : '\n' ∉ word := by
        rcases h.line_cases with ⟨-, -, hfound⟩ | hline
        · cases hfound
        · exact fun hmem ↦ hline (List.mem_append_right lead hmem)
      have hsplit : text = (front ++ lead) ++ word ++ rest := by
        rw [htext, hrest]
        simp only [List.append_assoc]
      rw [hposition, ← past_append, ← past_append, ← List.append_assoc]
      exact .intro body hsplit hne hline

theorem covers_of_reaches (hreach : Reaches l m) (hl : StandsIn text l)
    (htokens : ∀ t ∈ l.store.toList, t.Covers text l.file) :
    ∀ t ∈ m.store.toList, t.Covers text l.file := by
  apply hreach.forall_token htokens
  intro k lead word rest found hk h hrest
  rw [← hk.file_eq]
  exact covers_segmentTokens (hl.of_reaches hk) h hrest

theorem exists_reaches_of_tokenize {table : InstructionTable} {mode : NumericMode} {file : Handle}
    {tokens : List Token} (h : tokenize table mode file text = .tokens tokens) :
    ∃ m, (start table mode file text).Reaches m ∧ m.store.toList = tokens := by
  obtain ⟨m, hrun, htokens⟩ := tokenize_eq_tokens_iff_run.mp h
  have hreach := (start table mode file text).reaches_run
  rw [hrun] at hreach
  exact ⟨m, hreach, htokens⟩

theorem covers_of_tokenize {table : InstructionTable} {mode : NumericMode} {file : Handle}
    {tokens : List Token} (h : tokenize table mode file text = .tokens tokens) :
    ∀ t ∈ tokens, t.Covers text file := by
  obtain ⟨m, hreach, rfl⟩ := exists_reaches_of_tokenize h
  apply covers_of_reaches hreach (standsIn_start table mode file text)
  intro t ht
  cases ht

end Lexer

/-! ## Outcomes -/

def LexError.positions : LexError → List Position
  | .unexpected _ position => [position]
  | .atPoint _ position => [position]
  | .over _ range => [range.start, range.stop]

def Outcome.positions : Outcome → List Position
  | .finished => []
  | .failed e => e.positions
  | .unsupported cause => [cause.position]

namespace Lexer

variable {l : Lexer} {text : List Char} {words : List Char → Token.Body}

theorem isPlace_of_errorAt (hl : StandsIn text l) {e : LexError}
    (h : ErrorAt l.mode l.file l.position l.rest e) : ∀ p ∈ e.positions, IsPlace text p := by
  generalize hrest : l.rest = rear at h
  cases h with
  | unexpected =>
      intro p hp
      obtain rfl := List.mem_singleton.mp hp
      exact hl.isPlace
  | missing =>
      intro p hp
      obtain rfl := List.mem_singleton.mp hp
      exact hl.isPlace_past (hrest.trans (List.append_assoc ..))
  | fault =>
      intro p hp
      rcases List.mem_cons.mp hp with rfl | hp
      · exact hl.isPlace_past (hrest.trans (List.append_assoc ..))
      · obtain rfl := List.mem_singleton.mp hp
        exact hl.isPlace_past hrest

theorem isPlace_of_outcome? (hl : StandsIn text l) {r : Reading} {outcome : Outcome}
    (hreads : Reads words l.mode l.rest r) (hout : l.outcome? r = some outcome) :
    ∀ p ∈ outcome.positions, IsPlace text p := by
  cases outcome with
  | finished => exact absurd hout (outcome?_ne_finished l r)
  | failed e => exact isPlace_of_errorAt hl (errorAt_of_outcome? hreads hout)
  | unsupported cause =>
      obtain ⟨lead, rest, hrest, -, rfl⟩ := exists_floatAhead_of_outcome? hreads hout
      intro p hp
      obtain rfl := List.mem_singleton.mp hp
      exact hl.isPlace_past hrest

theorem isPlace_of_run (hl : StandsIn text l) : ∀ p ∈ l.run.1.positions, IsPlace text p := by
  rcases l.run_fst_cases with hfinished | ⟨m, c, cs, hreach, hrest, hout⟩
  · rw [hfinished]
    intro p hp
    cases hp
  · have hreads := Reading.reads_next m.table m.mode c cs
    rw [← hrest] at hreads
    exact isPlace_of_outcome? (hl.of_reaches hreach) hreads hout

/-! ## All positions -/

def positions (l : Lexer) : List Position :=
  l.position :: l.store.toList.flatMap fun t ↦ [t.range.start, t.range.stop]

/-- Whatever position is shown in a session, its row and column are those of its offset. -/
theorem faithful_of_mem_positions (table : InstructionTable) (mode : NumericMode) (file : Handle)
    (text : List Char) (n : Nat) :
    ∀ p ∈ ((start table mode file text).runs n).positions ++
      ((start table mode file text).runs n).run.1.positions, Faithful text p := by
  have hstart := standsIn_start table mode file text
  have hreach := (start table mode file text).reaches_runs n
  have hstands := hstart.of_reaches hreach
  have htokens : ∀ t ∈ (start table mode file text).store.toList, t.Covers text file := by
    intro t ht
    cases ht
  have hcovers := covers_of_reaches hreach hstart htokens
  intro p hp
  rw [faithful_iff_isPlace]
  rcases List.mem_append.mp hp with hshown | hstopped
  · rcases List.mem_cons.mp hshown with rfl | htoken
    · exact hstands.isPlace
    · obtain ⟨t, ht, hend⟩ := List.mem_flatMap.mp htoken
      obtain ⟨hfirst, hlast⟩ := (hcovers t ht).isPlace
      rcases List.mem_cons.mp hend with rfl | hend
      · exact hfirst
      · obtain rfl := List.mem_singleton.mp hend
        exact hlast
  · exact isPlace_of_run hstands p hstopped

/-- After a float literal was met in the second line, the register behind it is cut off. -/
theorem faithful_behind_float :
    ⟨6, 1, 3⟩ ∈ ((start .standard .unsigned 0 "ld\n0f$".toList).runs 1).positions ++
        ((start .standard .unsigned 0 "ld\n0f$".toList).runs 1).run.1.positions ∧
      Faithful "ld\n0f$".toList ⟨6, 1, 3⟩ := by
  have hmem : ⟨6, 1, 3⟩ ∈ ((start .standard .unsigned 0 "ld\n0f$".toList).runs 1).positions ++
      ((start .standard .unsigned 0 "ld\n0f$".toList).runs 1).run.1.positions := by
    decide +kernel
  exact ⟨hmem, faithful_of_mem_positions .standard .unsigned 0 "ld\n0f$".toList 1 _ hmem⟩

end Lexer

end AsmLexer
