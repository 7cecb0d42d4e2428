import AsmLexer.Proofs.Errors
import AsmLexer.Proofs.Lookahead

/-!
# Text behind a text

A reader looks ahead as far as it needs to see that its lexeme is over. It takes a line feed for
such an end just as it takes the end of the text, so a segment or a fault stays what it is when
more text comes behind. Only a register that is cut off by the end turns into another fault.
-/

namespace AsmLexer

open Text Grammar Position

/-- A reader in front of `rest` sees no difference when `more` comes behind: where it saw the end
of the text there is now a line feed, or still the end. -/
def SameAhead (rest more : List Char) : Prop :=
  rest = [] → NoneAhead (· ≠ '\n') more

theorem SameAhead.append_left {rear more : List Char} (h : SameAhead rear more)
    (front : List Char) : SameAhead (front ++ rear) more :=
  fun hnil ↦ h (List.append_eq_nil_iff.mp hnil).2

theorem sameAhead_of_ne_nil {rest : List Char} (hrest : rest ≠ []) (more : List Char) :
    SameAhead rest more :=
  fun hnil ↦ absurd hnil hrest

theorem sameAhead_lineFeed (rest below : List Char) : SameAhead rest ('\n' :: below) :=
  fun _ ↦ noneAhead_cons.mpr (by decide)

theorem SameAhead.mem_head?_or_eq {rest more : List Char} (hmore : SameAhead rest more) {c : Char}
    (hc : c ∈ (rest ++ more).head?) : c ∈ rest.head? ∨ c = '\n' := by
  cases rest with
  | nil =>
      have hline : decide (c ≠ '\n') = false := hmore rfl c hc
      exact .inr (by simpa using hline)
  | cons => exact .inl hc

theorem SameAhead.stopsAlike {rest more : List Char} (hmore : SameAhead rest more) :
    StopsAlike rest (rest ++ more) := by
  refine ⟨?_, fun hnil ↦ (List.append_eq_nil_iff.mp hnil).1⟩
  intro c hc
  rcases hmore.mem_head?_or_eq hc with hsame | rfl
  · exact .inl hsame
  · exact .inr (by decide)

theorem Text.NoneAhead.append {p : Char → Bool} {rest more : List Char}
    (hmore : SameAhead rest more) (h : NoneAhead p rest) (hp : p '\n' = false) :
    NoneAhead p (rest ++ more) := by
  intro c hc
  rcases hmore.mem_head?_or_eq hc with hsame | rfl
  · exact h c hsame
  · exact hp

namespace Grammar

variable {mode : NumericMode} {lead span rest more : List Char}

theorem Segment.append {words : List Char → Token.Body} {word : List Char}
    {found : Option Token.Body} (hmore : SameAhead rest more)
    (h : Segment words mode lead word rest found) :
    Segment words mode lead word (rest ++ more) found :=
  h.replace hmore.stopsAlike fun _ hstops ↦ hstops.append hmore (by decide)

theorem Fault.append {fault : SpanFault} (hmore : SameAhead rest more)
    (h : Fault mode fault lead span rest) : Fault mode fault lead span (rest ++ more) :=
  h.replace hmore.stopsAlike

theorem FloatAhead.append (hmore : StopsAlike [] more) (h : FloatAhead mode lead rest) :
    FloatAhead mode lead (rest ++ more) := by
  have hne : lead = [] → rest ≠ [] := by
    rintro hlead rfl
    obtain ⟨c, hc, -⟩ := h.opens hlead
    cases hc
  rw [← List.append_nil rest] at h
  exact h.replace hmore hne

/-- A register that was cut off by the end of the text is at fault when more text is there, but none
that goes on with it. -/
theorem Fault.register_of_unfinished {passed : List Char} (hpassed : passed ∈ unfinishedRegisters)
    (hmore : StopsAlike [] more) (hne : more ≠ []) : Fault mode .register ['$'] passed more := by
  have hshort : ∀ passed ∈ unfinishedRegisters, passed.length < 3 := by decide
  have hrun : MaximalRun isAlphanumeric passed more :=
    ⟨isAlphanumeric_of_mem_unfinishedRegisters passed hpassed,
      noneAhead_nil.replace hmore goesOn_of_isAlphanumeric⟩
  refine .register hrun (Register.named?_eq_none_of_run hrun ?_) ?_ ?_
  · rintro first second tail rfl
    have hlength := hshort _ hpassed
    simp only [List.length_cons] at hlength
    omega
  · rintro digit hdigit rfl
    obtain ⟨group, hgroup⟩ := Option.ne_none_iff_exists'.mp
      fun hnone ↦ Register.group?_eq_none_iff.mp hnone hpassed
    simp [Register.isDigit_eq_false_of_group? hgroup] at hdigit
  · exact fun hmem ↦ hne (eq_nil_of_mem_unfinishedRegisters hrun.stops hmem)

end Grammar

/-! ## Cuttings -/

section

variable {words : List Char → Token.Body} {mode : NumericMode} {file : Handle} {p : Position}
  {text more rear : List Char} {pieces : List (List Char)} {tokens : List Token}

theorem Cut.append (hmore : SameAhead rear more)
    (h : Cut words mode file p text pieces tokens rear) :
    Cut words mode file p (text ++ more) pieces tokens (rear ++ more) := by
  induction h with
  | nil => exact .nil ..
  | cons hhead htail ih =>
      have hrest := htail.text_eq
      rw [List.append_assoc]
      refine .cons (hhead.append ?_) (ih hmore)
      rw [hrest]
      exact hmore.append_left _

theorem Cut.trans {middle : List Char} {morePieces : List (List Char)} {moreTokens : List Token}
    (h : Cut words mode file p text pieces tokens middle)
    (hmore : Cut words mode file (p.past pieces.flatten) middle morePieces moreTokens rear) :
    Cut words mode file p text (pieces ++ morePieces) (tokens ++ moreTokens) rear := by
  induction h with
  | nil => exact hmore
  | cons hhead _ ih =>
      rw [List.flatten_cons, past_append] at hmore
      rw [List.append_assoc (segmentTokens ..)]
      exact .cons hhead (ih hmore)

/-- An error stays where it is and what it is, if it is not that of a register cut off. -/
theorem ErrorAt.append {e : LexError} (hmore : StopsAlike [] more)
    (hend : ∀ q, e ≠ .atPoint .registerAtEnd q) (h : ErrorAt mode file p rear e) :
    ErrorAt mode file p (rear ++ more) e := by
  cases h with
  | unexpected rest h => exact .unexpected _ h
  | @missing _ _ _ rest h =>
      cases h with
      | identifier hrest =>
          rw [List.append_assoc]
          have hrest' := hrest.replace (hmore.append_left rest) goesOn_of_isNameChar
          exact .missing (.identifier hrest')
      | register => exact absurd rfl (hend _)
  | @fault _ _ _ rest h =>
      rw [List.append_assoc]
      exact .fault (h.replace (hmore.append_left rest))

theorem ErrorAt.register_of_registerAtEnd {q : Position} (hmore : StopsAlike [] more)
    (hne : more ≠ []) (h : ErrorAt mode file p rear (.atPoint .registerAtEnd q)) :
    ErrorAt mode file p (rear ++ more) (.over .register ⟨q, p.past rear, file⟩) := by
  cases h with
  | missing h =>
      cases h with
      | register hpassed =>
          rw [List.append_nil]
          exact .fault (.register_of_unfinished hpassed hmore hne)

end

end AsmLexer
