import AsmLexer.Proofs.Grammar

/-!
# The grammar covers every text

In front of every nonempty text there is a segment, a fault or a float literal. The cases are those
of the first character, and behind a mark or a `$` those of the characters next to it.
-/

namespace AsmLexer.Grammar

open Text

variable (words : List Char → Token.Body) (mode : NumericMode)

theorem exists_reads_directive (text : List Char) : ∃ r, Reads words mode ('%' :: text) r := by
  obtain ⟨word, rest, rfl, hrun⟩ := exists_maximalRun isNameChar text
  by_cases hnil : word = []
  · subst hnil
    exact ⟨_, .missing (.identifier hrun.stops)⟩
  · by_cases hd : ∃ d : Directive, d.spelling.toList = word
    · obtain ⟨d, hd⟩ := hd
      exact ⟨_, .segment (.directive hrun hd)⟩
    · exact ⟨_, .fault (.directive hrun hnil (not_exists.mp hd))⟩

/-- The four ways a `$` may go on: the text ends too early, a general register, a named one, or
none of these. -/
theorem exists_reads_register (text : List Char) : ∃ r, Reads words mode ('$' :: text) r := by
  by_cases hend : text ∈ unfinishedRegisters
  · exact ⟨_, by simpa using Reads.missing (.register hend)⟩
  by_cases hgeneral : ∃ digit rest, text = 'r' :: digit :: rest ∧ digit.isDigit = true ∧
      NoneAhead isAlphanumeric rest
  · obtain ⟨digit, rest, rfl, hdigit, hrest⟩ := hgeneral
    exact ⟨_, .segment (.general hdigit hrest)⟩
  by_cases hnamed : ∃ first second tail r, text = 'r' :: first :: second :: tail ∧
      Register.named? first second = some r
  · obtain ⟨first, second, tail, r, rfl, hr⟩ := hnamed
    exact ⟨_, .segment (.named tail hr)⟩
  obtain ⟨name, rest, rfl, hrun⟩ := exists_maximalRun isAlphanumeric text
  refine ⟨_, .fault (.register hrun ?_ ?_ hend)⟩
  · intro first second tail htext
    rw [Option.eq_none_iff_forall_ne_some]
    intro r hr
    exact hnamed ⟨first, second, tail, r, htext, hr⟩
  · rintro digit hdigit rfl
    exact hgeneral ⟨digit, rest, rfl, hdigit, hrun.stops⟩

theorem exists_reads_hex (text : List Char) : ∃ r, Reads words mode ('0' :: 'x' :: text) r := by
  obtain ⟨digits, rest, rfl, hrun⟩ := exists_maximalRun isHexDigit text
  by_cases hbad : digits = [] ∨ unsignedMax < digitsValue 16 digits
  · exact ⟨_, .fault (.hex hrun hbad)⟩
  · obtain ⟨hne, hle⟩ := not_or.mp hbad
    exact ⟨_, .segment (.hex hrun hne (Nat.not_lt.mp hle))⟩

theorem exists_reads_binary (text : List Char) : ∃ r, Reads words mode ('0' :: 'b' :: text) r := by
  obtain ⟨digits, rest, rfl, hrun⟩ := exists_maximalRun isBinaryDigit text
  by_cases hnil : digits = []
  · subst hnil
    exact ⟨_, .fault (.noBinary hrun.stops)⟩
  by_cases hle : digits.length ≤ maxBinaryDigits
  · exact ⟨_, .segment (.binary hrun hnil hle)⟩
  have hlength : (digits.take (maxBinaryDigits + 1)).length = maxBinaryDigits + 1 := by
    rw [List.length_take]
    omega
  have hsplit : digits ++ rest = digits.take (maxBinaryDigits + 1) ++
      (digits.drop (maxBinaryDigits + 1) ++ rest) := by
    rw [← List.append_assoc, List.take_append_drop]
  rw [hsplit]
  exact ⟨_, .fault (.longBinary _ (fun c hc ↦ hrun.all c (List.mem_of_mem_take hc)) hlength)⟩

variable {words mode}

theorem exists_reads_unsigned {mark text : List Char} (hmark : Mark 'u' .unsigned mode mark text)
    (hopens : mark = [] → ¬NoneAhead Char.isDigit text) :
    ∃ r, Reads words mode (mark ++ text) r := by
  rcases Literal.decimal_cases unsignedMax text with hnone | ⟨digits, rest, rfl, hdec | hpast⟩
  · cases hmark with
    | letter => exact ⟨_, .fault (.noUnsigned hnone)⟩
    | mode => exact absurd hnone (hopens rfl)
  · rw [← List.append_assoc]
    exact ⟨_, .segment (.unsigned hmark hdec)⟩
  · rw [← List.append_assoc]
    exact ⟨_, .fault (.unsigned hmark hpast)⟩

/-- The digits of a signed number, behind its sign if it has one. -/
theorem exists_reads_magnitude {mark text : List Char} (negative : Bool)
    (hmark : Mark 'i' .signed mode mark (sign negative ++ text))
    (hopens : mark ++ sign negative = [] → ¬NoneAhead Char.isDigit text)
    (hminus : negative = false → text.head? ≠ some '-') :
    ∃ r, Reads words mode (mark ++ sign negative ++ text) r := by
  rcases Literal.decimal_cases signedMax text with hnone | ⟨digits, rest, rfl, hdec | hpast⟩
  · have hsign : mark ++ sign negative ≠ [] := fun hnil ↦ hopens hnil hnone
    exact ⟨_, by simpa using Reads.fault (.noSigned negative hmark hsign hminus hnone)⟩
  all_goals
    have hsplit : mark ++ sign negative ++ (digits ++ rest) =
        mark ++ (sign negative ++ digits) ++ rest := by
      simp only [List.append_assoc]
    rw [← List.append_assoc] at hmark
    rw [hsplit]
  · exact ⟨_, .segment (.signed negative hmark hdec)⟩
  · exact ⟨_, .fault (.signed negative hmark hpast)⟩

theorem exists_reads_signed {mark text : List Char} (hmark : Mark 'i' .signed mode mark text)
    (hopens : mark = [] → ∃ c ∈ text.head?, OpensNumber c) :
    ∃ r, Reads words mode (mark ++ text) r := by
  by_cases hminus : text.head? = some '-'
  · obtain ⟨digits, rfl⟩ := List.head?_eq_some_iff.mp hminus
    have hread := @exists_reads_magnitude words mode mark digits true hmark (by simp [sign]) nofun
    simpa [sign] using hread
  · have hdigit : mark ++ sign false = [] → ¬NoneAhead Char.isDigit text := by
      intro hnil hnone
      obtain ⟨c, hc, hdigit | rfl⟩ := hopens (by simpa [sign] using hnil)
      · simp [hnone c hc] at hdigit
      · exact hminus hc
    have hread := @exists_reads_magnitude words mode mark text false hmark hdigit fun _ ↦ hminus
    simpa [sign] using hread

variable (words mode)

theorem exists_reads_unmarked {c : Char} {cs : List Char} (hopens : OpensNumber c)
    (hunmarked : Unmarked (c :: cs)) : ∃ r, Reads words mode (c :: cs) r := by
  cases mode with
  | unsigned =>
      by_cases hminus : c = '-'
      · subst hminus
        exact ⟨_, .unexpected cs ⟨by decide, by decide, by decide, by decide, fun _ ↦ rfl⟩⟩
      · have hdigit : c.isDigit = true := hopens.resolve_right hminus
        have hmark : Mark 'u' .unsigned .unsigned [] (c :: cs) := .mode rfl hunmarked
        exact exists_reads_unsigned hmark fun _ ↦ by simp [hdigit]
  | signed =>
      have hmark : Mark 'i' .signed .signed [] (c :: cs) := .mode rfl hunmarked
      exact exists_reads_signed hmark fun _ ↦ ⟨c, rfl, hopens⟩
  | float =>
      have hmark : Mark 'f' .float .float [] (c :: cs) := .mode rfl hunmarked
      exact ⟨_, .float ⟨hmark, fun _ ↦ ⟨c, rfl, hopens⟩⟩⟩

theorem exists_reads_zero (cs : List Char) : ∃ r, Reads words mode ('0' :: cs) r := by
  by_cases hunmarked : Unmarked ('0' :: cs)
  · exact exists_reads_unmarked words mode (.inl rfl) hunmarked
  · simp only [Unmarked, Classical.not_forall, Classical.not_not] at hunmarked
    obtain ⟨c, rest, htext, hc⟩ := hunmarked
    obtain rfl : cs = c :: rest := (List.cons.inj htext).2
    simp only [markLetters, List.mem_cons, List.not_mem_nil, or_false] at hc
    rcases hc with rfl | rfl | rfl | rfl | rfl
    · exact exists_reads_hex words mode rest
    · exact exists_reads_binary words mode rest
    · exact exists_reads_signed (.letter rest) (by simp)
    · exact exists_reads_unsigned (.letter rest) (by simp)
    · exact ⟨_, .float ⟨.letter rest, by simp⟩⟩

theorem exists_reads (c : Char) (cs : List Char) : ∃ r, Reads words mode (c :: cs) r := by
  cases h : Opening.of c with
  | lineFeed =>
      obtain rfl : c = '\n' := Opening.eq_marker (congrArg Opening.marker? h)
      exact ⟨_, .segment (.lineFeed cs)⟩
  | directive =>
      obtain rfl : c = '%' := Opening.eq_marker (congrArg Opening.marker? h)
      exact exists_reads_directive words mode cs
  | comment =>
      obtain rfl : c = '#' := Opening.eq_marker (congrArg Opening.marker? h)
      obtain ⟨body, rest, rfl, hrun⟩ := exists_maximalRun (· ≠ '\n') cs
      have hread := Reads.segment (@Segment.comment words mode body rest hrun)
      rw [List.append_nil] at hread
      exact ⟨_, hread⟩
  | comma =>
      obtain rfl : c = ',' := Opening.eq_marker (congrArg Opening.marker? h)
      exact ⟨_, .segment (.comma cs)⟩
  | colon =>
      obtain rfl : c = ':' := Opening.eq_marker (congrArg Opening.marker? h)
      exact ⟨_, .segment (.colon cs)⟩
  | register =>
      obtain rfl : c = '$' := Opening.eq_marker (congrArg Opening.marker? h)
      exact exists_reads_register words mode cs
  | zero =>
      obtain rfl : c = '0' := Opening.eq_marker (congrArg Opening.marker? h)
      exact exists_reads_zero words mode cs
  | blank =>
      obtain ⟨hspace, hline⟩ := Opening.of_eq_blank_iff.mp h
      exact ⟨_, .segment (.blank cs hspace hline)⟩
  | word =>
      have hname := Opening.of_eq_word_iff.mp h
      obtain ⟨word, rest, htext, hrun⟩ := exists_maximalRun isNameChar (c :: cs)
      have hne : word ≠ [] := by
        rintro rfl
        have hstop : NoneAhead isNameChar (c :: cs) := by
          rw [htext]
          exact hrun.stops
        simp [hname] at hstop
      rw [htext]
      exact ⟨_, .segment (.word hrun hne)⟩
  | number =>
      obtain ⟨hopens, hzero⟩ := Opening.of_eq_number_iff.mp h
      refine exists_reads_unmarked words mode hopens ?_
      intro d rest htext
      exact absurd (List.cons.inj htext).1 hzero
  | nothing =>
      obtain ⟨hmarkers, hspace, hname, hnumber⟩ := Opening.of_eq_nothing_iff.mp h
      obtain ⟨hdigit, hminus⟩ := not_or.mp hnumber
      refine ⟨_, .unexpected cs ⟨hspace, hname, by simpa using hdigit, ?_, ?_⟩⟩
      · intro hmem
        apply hmarkers
        simp only [markers, List.mem_cons] at hmem ⊢
        exact .inr (by grind)
      · intro h
        exact absurd h hminus

end AsmLexer.Grammar
