import AsmLexer.Lexer.Step
import AsmLexer.Proofs.Coverage
import AsmLexer.Proofs.LiteralReading
import AsmLexer.Proofs.NameReading

/-!
# Reading follows the grammar

What a step reads in front of a text is what the grammar says is there, and nothing else. So there
is never more than one way to begin a text with a segment or a fault.
-/

namespace AsmLexer.Reading

open Text Grammar Name Literal

variable {table : InstructionTable} {mode : NumericMode}

theorem next_word {c : Char} (cs : List Char) (hc : isNameChar c = true) :
    next table mode c cs = readWord table (c :: cs) := by
  simp [next, Opening.of_eq_word_iff.mpr hc]

theorem next_blank {c : Char} (cs : List Char) (hspace : Unicode.isWhiteSpace c = true)
    (hline : c ≠ '\n') : next table mode c cs = .blank 1 := by
  simp [next, Opening.of_eq_blank_iff.mpr ⟨hspace, hline⟩]

theorem next_unmarked {c : Char} {cs : List Char} (hopens : OpensNumber c)
    (hunmarked : Unmarked (c :: cs)) : next table mode c cs = readUnmarked mode c cs := by
  by_cases hzero : c = '0'
  · subst hzero
    exact readZero_unmarked mode hunmarked
  · simp [next, Opening.of_eq_number_iff.mpr ⟨hopens, hzero⟩]

theorem next_unsigned {mark text cs : List Char} {c : Char}
    (hmark : Mark 'u' .unsigned mode mark text) (htext : mark ++ text = c :: cs)
    (hopens : mark = [] → c.isDigit = true) :
    next table mode c cs = readUnsigned mark.length text := by
  cases hmark with
  | letter =>
      obtain ⟨rfl, rfl⟩ := List.cons.inj htext
      rfl
  | mode hmode hunmarked =>
      subst hmode
      obtain rfl : text = c :: cs := htext
      have hdigit := hopens rfl
      have hminus : c ≠ '-' := by
        rintro rfl
        simp at hdigit
      simp [next_unmarked (.inl hdigit) hunmarked, readUnmarked, hminus]

theorem next_signed {mark text cs : List Char} {c : Char}
    (hmark : Mark 'i' .signed mode mark text) (htext : mark ++ text = c :: cs)
    (hopens : mark = [] → OpensNumber c) :
    next table mode c cs = readSigned mark.length text := by
  cases hmark with
  | letter =>
      obtain ⟨rfl, rfl⟩ := List.cons.inj htext
      rfl
  | mode hmode hunmarked =>
      subst hmode
      obtain rfl : text = c :: cs := htext
      exact next_unmarked (hopens rfl) hunmarked

theorem next_float {lead rest cs : List Char} {c : Char} (h : FloatAhead mode lead rest)
    (htext : lead ++ rest = c :: cs) : next table mode c cs = .float lead.length := by
  obtain ⟨hmark, hopens⟩ := h
  cases hmark with
  | letter =>
      obtain ⟨rfl, rfl⟩ := List.cons.inj htext
      rfl
  | mode hmode hunmarked =>
      subst hmode
      obtain rfl : rest = c :: cs := htext
      obtain ⟨d, hd, hopens⟩ := hopens rfl
      obtain rfl : c = d := Option.some.inj hd
      exact next_unmarked hopens hunmarked

theorem next_unexpected {c : Char} (cs : List Char) (h : Unexpected mode c) :
    next table mode c cs = .unexpected c := by
  by_cases hminus : c = '-'
  · have hmode := h.mode_of_minus hminus
    subst hminus hmode
    rfl
  · have hline : c ≠ '\n' := by
      rintro rfl
      exact absurd h.notWhiteSpace (by decide)
    have hzero : c ≠ '0' := by
      rintro rfl
      exact absurd h.notDigit (by decide)
    have hmarkers : c ∉ markers := by
      have hmarker := h.notMarker
      simp only [markers, List.mem_cons, List.not_mem_nil, or_false, not_or] at hmarker ⊢
      grind
    have hopens : ¬OpensNumber c := by
      simp [OpensNumber, h.notDigit, hminus]
    have hof := Opening.of_eq_nothing_iff.mpr
      ⟨hmarkers, h.notWhiteSpace, h.notNameChar, hopens⟩
    simp [next, hof]

/-! ## Segments -/

/-- The first character of a run of digits with no sign in front, or else the sign. -/
theorem opensNumber_of_append_eq {negative : Bool} {digits rest cs : List Char} {c : Char}
    (hdigits : ∀ d ∈ digits, d.isDigit = true) (hne : digits ≠ [])
    (htext : sign negative ++ digits ++ rest = c :: cs) : OpensNumber c := by
  cases negative with
  | true => exact .inr (List.cons.inj htext).1.symm
  | false =>
      obtain ⟨d, digits, rfl⟩ := List.exists_cons_of_ne_nil hne
      obtain rfl : d = c := (List.cons.inj htext).1
      exact .inl (hdigits d List.mem_cons_self)

theorem isDigit_of_append_eq {digits rest cs : List Char} {c : Char}
    (hdigits : ∀ d ∈ digits, d.isDigit = true) (hne : digits ≠ [])
    (htext : digits ++ rest = c :: cs) : c.isDigit = true := by
  obtain ⟨d, digits, rfl⟩ := List.exists_cons_of_ne_nil hne
  obtain rfl : d = c := (List.cons.inj htext).1
  exact hdigits d List.mem_cons_self

theorem next_segment {lead word rest cs : List Char} {c : Char} {found : Option Token.Body}
    (h : Segment (wordBody table) mode lead word rest found)
    (htext : lead ++ word ++ rest = c :: cs) :
    next table mode c cs = segmentReading lead word found := by
  cases h with
  | lineFeed =>
      obtain ⟨rfl, -⟩ := List.cons.inj htext
      rfl
  | blank _ hspace hline =>
      obtain ⟨rfl, -⟩ := List.cons.inj htext
      simp [next_blank cs hspace hline, segmentReading, hline]
  | @comment body _ hrun =>
      rw [List.append_nil] at htext
      obtain ⟨rfl, rfl⟩ := List.cons.inj htext
      change Reading.blank (1 + ((body ++ rest).takeWhile (· ≠ '\n')).length) = _
      rw [hrun.takeWhile_append]
      simp [segmentReading, Nat.add_comm]
  | comma =>
      obtain ⟨rfl, -⟩ := List.cons.inj htext
      rfl
  | colon =>
      obtain ⟨rfl, -⟩ := List.cons.inj htext
      rfl
  | directive hrun hd =>
      obtain ⟨rfl, rfl⟩ := List.cons.inj htext
      exact readDirective_spelling hrun hd
  | word hrun hne =>
      obtain ⟨d, word, rfl⟩ := List.exists_cons_of_ne_nil hne
      obtain ⟨rfl, rfl⟩ := List.cons.inj htext
      rw [next_word _ (hrun.all d List.mem_cons_self)]
      exact readWord_run table hrun
  | general hdigit hrest =>
      obtain ⟨rfl, rfl⟩ := List.cons.inj htext
      exact readRegister_general hdigit hrest
  | named _ hr =>
      obtain ⟨rfl, rfl⟩ := List.cons.inj htext
      exact readRegister_named rest hr
  | hex hrun hne hle =>
      obtain ⟨rfl, rfl⟩ := List.cons.inj htext
      exact readHex_segment hrun hne hle
  | binary hrun hne hle =>
      obtain ⟨rfl, rfl⟩ := List.cons.inj htext
      exact readBinary_segment hrun hne hle
  | unsigned hmark hnumber =>
      rw [List.append_assoc] at htext
      rw [next_unsigned hmark htext, readUnsigned_decimal _ hnumber]
      · rfl
      · rintro rfl
        exact isDigit_of_append_eq hnumber.run.all hnumber.ne_nil htext
  | signed negative hmark hnumber =>
      rw [List.append_assoc] at htext
      rw [next_signed hmark htext, readSigned_decimal _ _ hnumber]
      · rfl
      · rintro rfl
        exact opensNumber_of_append_eq hnumber.run.all hnumber.ne_nil htext

/-! ## Faults -/

theorem next_missing {fault : PointFault} {lead passed rest cs : List Char} {c : Char}
    (h : Missing fault lead passed rest) (htext : lead ++ passed ++ rest = c :: cs) :
    next table mode c cs = .atPoint fault lead.length (lead.length + passed.length) := by
  cases h with
  | identifier hrest =>
      obtain ⟨rfl, rfl⟩ := List.cons.inj htext
      exact readDirective_noneAhead hrest
  | register hpassed =>
      rw [List.append_nil] at htext
      obtain ⟨rfl, rfl⟩ := List.cons.inj htext
      exact readRegister_unfinished passed hpassed

theorem next_fault {fault : SpanFault} {lead span rest cs : List Char} {c : Char}
    (h : Fault mode fault lead span rest) (htext : lead ++ span ++ rest = c :: cs) :
    next table mode c cs = .over fault lead.length span.length := by
  cases h with
  | directive hrun hne hword =>
      obtain ⟨rfl, rfl⟩ := List.cons.inj htext
      exact readDirective_unknown hrun hne hword
  | register hrun hnamed hgeneral hend =>
      obtain ⟨rfl, rfl⟩ := List.cons.inj htext
      exact readRegister_fault hrun hnamed hgeneral hend
  | hex hrun hdigits =>
      obtain ⟨rfl, rfl⟩ := List.cons.inj htext
      exact readHex_fault hrun hdigits
  | noBinary hrest =>
      obtain ⟨rfl, rfl⟩ := List.cons.inj htext
      exact readBinary_noneAhead hrest
  | longBinary _ hdigits hlength =>
      obtain ⟨rfl, rfl⟩ := List.cons.inj htext
      exact readBinary_long rest hdigits hlength
  | noUnsigned hrest =>
      obtain ⟨rfl, rfl⟩ := List.cons.inj htext
      exact readUnsigned_noneAhead 2 hrest
  | unsigned hmark hpast =>
      rw [List.append_assoc] at htext
      rw [next_unsigned hmark htext, readUnsigned_overflow _ _ hpast]
      rintro rfl
      exact isDigit_of_append_eq hpast.all hpast.ne_nil htext
  | @noSigned mark _ negative hmark hsign hminus hrest =>
      simp only [List.append_assoc, List.nil_append] at htext
      rw [next_signed hmark htext, readSigned_noneAhead _ _ hminus hrest]
      · simp
      · rintro rfl
        cases negative with
        | true => exact .inr (List.cons.inj htext).1.symm
        | false => exact absurd rfl hsign
  | signed negative hmark hpast =>
      rw [List.append_assoc] at htext
      rw [next_signed hmark htext, readSigned_overflow _ _ _ hpast]
      rintro rfl
      exact opensNumber_of_append_eq hpast.all hpast.ne_nil htext

/-! ## Both directions -/

theorem next_eq_of_reads {text cs : List Char} {c : Char} {r : Reading}
    (h : Reads (wordBody table) mode text r) (htext : text = c :: cs) :
    next table mode c cs = r := by
  cases h with
  | segment h => exact next_segment h htext
  | unexpected rest h =>
      obtain ⟨rfl, rfl⟩ := List.cons.inj htext
      exact next_unexpected _ h
  | missing h => exact next_missing h htext
  | fault h => exact next_fault h htext
  | float h => exact next_float h htext

theorem reads_next (table : InstructionTable) (mode : NumericMode) (c : Char) (cs : List Char) :
    Reads (wordBody table) mode (c :: cs) (next table mode c cs) := by
  obtain ⟨r, hr⟩ := exists_reads (wordBody table) mode c cs
  rwa [next_eq_of_reads hr rfl]

end AsmLexer.Reading
