import AsmLexer.Proofs.Lexeme
import AsmLexer.Proofs.WithinLine

/-!
# Looking ahead

A reader that has come to the end of its lexeme looks at the next character and at no other. So the
text behind a lexeme may be replaced by any other that begins in the same way, or with a character
that goes on with no lexeme. Only a comment goes on with nearly everything.
-/

namespace AsmLexer

open Text Grammar

/-- Whatever is stopped by `rest` is stopped by `other` too: it begins in the same way, or with a
character that goes on with no lexeme. It is not the end of the text if `rest` is not. -/
structure StopsAlike (rest other : List Char) : Prop where
  head : ∀ c ∈ other.head?, c ∈ rest.head? ∨ goesOn c = false ∧ c ≠ '-'
  nil : other = [] → rest = []

theorem stopsAlike_nil_cons {c : Char} (hc : goesOn c = false) (hminus : c ≠ '-')
    (rest : List Char) : StopsAlike [] (c :: rest) := by
  refine ⟨?_, nofun⟩
  intro d hd
  obtain rfl : c = d := Option.some.inj hd
  exact .inr ⟨hc, hminus⟩

/-- What is stopped by the end of the text is stopped by `more` wherever that comes. -/
theorem StopsAlike.append_left {more : List Char} (h : StopsAlike [] more) (rest : List Char) :
    StopsAlike rest (rest ++ more) := by
  refine ⟨?_, fun hnil ↦ (List.append_eq_nil_iff.mp hnil).1⟩
  intro c hc
  cases rest with
  | nil => exact h.head c hc
  | cons => exact .inl hc

namespace Register

theorem isAlphanumeric_of_mem_byLetters :
    ∀ entry ∈ byLetters, ∀ member ∈ entry.2,
      isAlphanumeric entry.1 = true ∧ isAlphanumeric member.1 = true := by
  decide

theorem isAlphanumeric_of_named? {first second : Char} {r : Register}
    (h : named? first second = some r) :
    isAlphanumeric first = true ∧ isAlphanumeric second = true := by
  obtain ⟨group, hgroup, hsecond⟩ := Option.bind_eq_some_iff.mp h
  exact isAlphanumeric_of_mem_byLetters _ (mem_of_lookup_eq_some hgroup) _
    (mem_of_lookup_eq_some hsecond)

/-- The name of a register is within the letters and numerals, so it is seen in their run. -/
theorem named?_eq_none_of_run {name rest : List Char} (hrun : MaximalRun isAlphanumeric name rest)
    (hname : ∀ first second tail, name = 'r' :: first :: second :: tail →
      named? first second = none) :
    ∀ first second tail, name ++ rest = 'r' :: first :: second :: tail →
      named? first second = none := by
  intro first second tail htext
  rw [Option.eq_none_iff_forall_ne_some]
  intro r hr
  obtain ⟨hfirst, hsecond⟩ := isAlphanumeric_of_named? hr
  have hletter : isAlphanumeric 'r' = true := by decide
  have hwhole : name = 'r' :: first :: second :: tail.takeWhile isAlphanumeric := by
    rw [← hrun.takeWhile_append, htext]
    simp [hletter, hfirst, hsecond]
  rw [hname first second _ hwhole] at hr
  cases hr

end Register

section

variable {rest other : List Char} (hahead : StopsAlike rest other)

include hahead

theorem Text.NoneAhead.replace {p : Char → Bool} (h : NoneAhead p rest)
    (hp : ∀ {c}, p c = true → goesOn c = true) : NoneAhead p other := by
  intro c hc
  rcases hahead.head c hc with hsame | ⟨hgoes, -⟩
  · exact h c hsame
  · apply Bool.eq_false_iff.mpr
    intro hpc
    rw [hp hpc] at hgoes
    cases hgoes

theorem Text.MaximalRun.replace {p : Char → Bool} {run : List Char} (h : MaximalRun p run rest)
    (hp : ∀ {c}, p c = true → goesOn c = true) : MaximalRun p run other :=
  ⟨h.all, h.stops.replace hahead hp⟩

theorem Literal.Decimal.replace {limit : Nat} {digits : List Char}
    (h : Decimal limit digits rest) : Decimal limit digits other :=
  ⟨h.run.replace hahead goesOn_of_isDigit, h.ne_nil, h.le⟩

namespace Grammar

/-- No zero becomes a mark: what comes after it is the same, or no letter. -/
theorem Unmarked.replace {front : List Char} (hne : front ≠ []) (h : Unmarked (front ++ rest)) :
    Unmarked (front ++ other) := by
  intro c tail htext hc
  match front, hne with
  | [d], _ =>
      obtain ⟨rfl, rfl⟩ := List.cons.inj htext
      rcases hahead.head c rfl with hsame | ⟨hgoes, -⟩
      · obtain ⟨seen, rfl⟩ := List.head?_eq_some_iff.mp hsame
        exact h c seen rfl hc
      · rw [goesOn_of_mem_markLetters c hc] at hgoes
        cases hgoes
  | d :: e :: front, _ =>
      obtain ⟨rfl, hbehind⟩ := List.cons.inj htext
      obtain ⟨rfl, -⟩ := List.cons.inj hbehind
      exact h e (front ++ rest) rfl hc

theorem Mark.replace {letter : Char} {kind mode : NumericMode} {mark front : List Char}
    (hne : mark = [] → front ≠ []) (h : Mark letter kind mode mark (front ++ rest)) :
    Mark letter kind mode mark (front ++ other) := by
  cases h with
  | letter => exact .letter _
  | mode hmode htext => exact .mode hmode (htext.replace hahead (hne rfl))

/-- A comment goes on up to the end of its line, and so depends on more. -/
theorem Segment.replace {words : List Char → Token.Body} {mode : NumericMode}
    {lead word : List Char} {found : Option Token.Body}
    (hcomment : lead.head? = some '#' → NoneAhead (· ≠ '\n') rest → NoneAhead (· ≠ '\n') other)
    (h : Segment words mode lead word rest found) : Segment words mode lead word other found := by
  cases h with
  | lineFeed => exact .lineFeed _
  | blank _ hspace hline => exact .blank _ hspace hline
  | comment hrun => exact .comment ⟨hrun.all, hcomment rfl hrun.stops⟩
  | comma => exact .comma _
  | colon => exact .colon _
  | directive hrun hd => exact .directive (hrun.replace hahead goesOn_of_isNameChar) hd
  | word hrun hne => exact .word (hrun.replace hahead goesOn_of_isNameChar) hne
  | general hdigit hrest => exact .general hdigit (hrest.replace hahead goesOn_of_isAlphanumeric)
  | named _ hr => exact .named _ hr
  | hex hrun hne hle => exact .hex (hrun.replace hahead goesOn_of_isHexDigit) hne hle
  | binary hrun hne hle => exact .binary (hrun.replace hahead goesOn_of_isBinaryDigit) hne hle
  | unsigned hmark hnumber =>
      exact .unsigned (hmark.replace hahead fun _ ↦ hnumber.ne_nil) (hnumber.replace hahead)
  | signed negative hmark hnumber =>
      refine .signed negative (hmark.replace hahead ?_) (hnumber.replace hahead)
      exact fun _ ↦ List.append_ne_nil_of_right_ne_nil _ hnumber.ne_nil

end Grammar

end

/-! ## Faults -/

namespace Grammar

theorem isAlphanumeric_of_mem_unfinishedRegisters :
    ∀ passed ∈ unfinishedRegisters, ∀ c ∈ passed, isAlphanumeric c = true := by
  have hall : ∀ passed ∈ unfinishedRegisters, passed.all isAlphanumeric = true := by decide
  exact fun passed hpassed ↦ List.all_eq_true.mp (hall passed hpassed)

/-- A register is cut off by the end of the text only. -/
theorem eq_nil_of_mem_unfinishedRegisters {name rest : List Char}
    (hstops : NoneAhead isAlphanumeric rest) (hmem : name ++ rest ∈ unfinishedRegisters) :
    rest = [] := by
  have hall := isAlphanumeric_of_mem_unfinishedRegisters _ hmem
  cases rest with
  | nil => rfl
  | cons c rest =>
      have hc := hall c (by simp)
      rw [noneAhead_cons.mp hstops] at hc
      cases hc

variable {mode : NumericMode} {lead span rest other : List Char}

theorem Fault.replace {fault : SpanFault} (hahead : StopsAlike rest other)
    (h : Fault mode fault lead span rest) : Fault mode fault lead span other := by
  cases h with
  | directive hrun hne hword =>
      exact .directive (hrun.replace hahead goesOn_of_isNameChar) hne hword
  | register hrun hnamed hgeneral hend =>
      have hrun' := hrun.replace hahead goesOn_of_isAlphanumeric
      refine .register hrun' (Register.named?_eq_none_of_run hrun' ?_) hgeneral ?_
      · rintro first second tail rfl
        exact hnamed first second (tail ++ rest) rfl
      · intro hmem
        have hnil := eq_nil_of_mem_unfinishedRegisters hrun'.stops hmem
        rw [hnil, ← hahead.nil hnil] at hmem
        exact hend hmem
  | hex hrun hdigits => exact .hex (hrun.replace hahead goesOn_of_isHexDigit) hdigits
  | noBinary hrest => exact .noBinary (hrest.replace hahead goesOn_of_isBinaryDigit)
  | longBinary _ hdigits hlength => exact .longBinary _ hdigits hlength
  | noUnsigned hrest => exact .noUnsigned (hrest.replace hahead goesOn_of_isDigit)
  | unsigned hmark hpast => exact .unsigned (hmark.replace hahead fun _ ↦ hpast.ne_nil) hpast
  | @noSigned mark _ negative hmark hsign hminus hrest =>
      refine .noSigned negative (hmark.replace hahead ?_) hsign ?_
        (hrest.replace hahead goesOn_of_isDigit)
      · rintro rfl
        exact hsign
      · intro hpositive hhead
        rcases hahead.head '-' hhead with hsame | ⟨-, hne⟩
        · exact hminus hpositive hsame
        · exact hne rfl
  | signed negative hmark hpast =>
      refine .signed negative (hmark.replace hahead ?_) hpast
      exact fun _ ↦ List.append_ne_nil_of_right_ne_nil _ hpast.ne_nil

/-- What shows that there is a literal without a mark comes before the rest. -/
theorem FloatAhead.replace {front : List Char} (hahead : StopsAlike rest other)
    (hne : lead = [] → front ≠ []) (h : FloatAhead mode lead (front ++ rest)) :
    FloatAhead mode lead (front ++ other) := by
  refine ⟨h.mark.replace hahead hne, ?_⟩
  intro hlead
  obtain ⟨c, front, rfl⟩ := List.exists_cons_of_ne_nil (hne hlead)
  exact h.opens hlead

end Grammar

end AsmLexer
