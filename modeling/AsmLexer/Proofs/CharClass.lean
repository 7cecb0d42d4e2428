import AsmLexer.Lexer.CharClass

/-!
# What opens what

The classes behind the dispatch do not overlap, so the order in which the dispatch asks for them
does not matter: each kind of lexeme is opened by the characters of one class and by no others.
-/

namespace AsmLexer

/-- The characters that open a lexeme of their own, before any class is asked for. -/
def markers : List Char :=
  ['\n', '%', '#', ',', ':', '$', '0']

/-- A character that a number without a mark begins with. -/
def OpensNumber (c : Char) : Prop :=
  c.isDigit = true ∨ c = '-'

theorem forall_mem_markers {P : Char → Prop} :
    (∀ c ∈ markers, P c) ↔ P '\n' ∧ P '%' ∧ P '#' ∧ P ',' ∧ P ':' ∧ P '$' ∧ P '0' := by
  simp [markers]

theorem isNameChar_eq_false_of_mem_markers : ∀ c ∈ markers, isNameChar c = false := by
  rw [forall_mem_markers]
  decide

theorem isWhiteSpace_eq_false_of_mem_markers :
    ∀ c ∈ markers, c ≠ '\n' → Unicode.isWhiteSpace c = false := by
  rw [forall_mem_markers]
  decide

theorem isDigit_eq_false_of_mem_markers : ∀ c ∈ markers, c ≠ '0' → c.isDigit = false := by
  rw [forall_mem_markers]
  decide

/-- Every code point of the one class is looked up in the others: there are 25 of them. -/
theorem covers_eq_false_of_mem_whiteSpaceRanges :
    ∀ ranges ∈ [Unicode.alphabeticRanges, Unicode.numberRanges],
      ∀ r ∈ Unicode.whiteSpaceRanges, ∀ i < r.2 - r.1 + 1,
        CodeRange.covers ranges (r.1 + i) = false := by
  decide +kernel

theorem covers_eq_false_of_isWhiteSpace {c : Char} (h : Unicode.isWhiteSpace c = true) :
    ∀ ranges ∈ [Unicode.alphabeticRanges, Unicode.numberRanges],
      CodeRange.covers ranges c.toNat = false := by
  intro ranges hranges
  obtain ⟨r, hr, hfirst, hlast⟩ := CodeRange.exists_of_covers h
  have hcovers := covers_eq_false_of_mem_whiteSpaceRanges ranges hranges r hr (c.toNat - r.1)
    (by omega)
  rwa [Nat.add_sub_cancel' hfirst] at hcovers

theorem isAlphabetic_eq_false_of_isWhiteSpace {c : Char} (h : Unicode.isWhiteSpace c = true) :
    Unicode.isAlphabetic c = false :=
  covers_eq_false_of_isWhiteSpace h _ List.mem_cons_self

theorem isNumber_eq_false_of_isWhiteSpace {c : Char} (h : Unicode.isWhiteSpace c = true) :
    Unicode.isNumber c = false :=
  covers_eq_false_of_isWhiteSpace h _ (List.mem_cons_of_mem _ List.mem_cons_self)

/-- The letters begin beyond the decimal digits. -/
theorem isAlphabetic_eq_false_of_lt {c : Char} (h : c.toNat < 0x41) :
    Unicode.isAlphabetic c = false :=
  CodeRange.covers_cons_of_lt _ h

theorem toNat_le_of_isDigit {c : Char} (h : c.isDigit = true) : 48 ≤ c.toNat ∧ c.toNat ≤ 57 :=
  Char.isDigit_iff_toNat.mp h

theorem isNameChar_eq_false_of_isWhiteSpace {c : Char} (h : Unicode.isWhiteSpace c = true) :
    isNameChar c = false := by
  have hunderscore : c ≠ '_' := by
    rintro rfl
    revert h
    decide
  simp [isNameChar, hunderscore, isAlphabetic_eq_false_of_isWhiteSpace h]

theorem isNameChar_eq_false_of_isDigit {c : Char} (h : c.isDigit = true) :
    isNameChar c = false := by
  have hle := (toNat_le_of_isDigit h).2
  have hunderscore : c ≠ '_' := by
    rintro rfl
    revert h
    decide
  simp [isNameChar, hunderscore, isAlphabetic_eq_false_of_lt (c := c) (by omega)]

theorem isWhiteSpace_eq_false_of_isDigit {c : Char} (h : c.isDigit = true) :
    Unicode.isWhiteSpace c = false := by
  obtain ⟨hfirst, hlast⟩ := toNat_le_of_isDigit h
  have h₁ : 0x20 < c.toNat := by omega
  have h₂ : c.toNat < 0x85 := by omega
  unfold Unicode.isWhiteSpace Unicode.whiteSpaceRanges
  rw [CodeRange.covers_cons_of_gt _ (by omega) (by omega),
    CodeRange.covers_cons_of_gt _ (by omega) (by omega), CodeRange.covers_cons_of_lt _ h₂]

theorem isAlphanumeric_of_isDigit {c : Char} (h : c.isDigit = true) :
    isAlphanumeric c = true := by
  obtain ⟨hfirst, hlast⟩ := toNat_le_of_isDigit h
  have hlow : ¬c.toNat < 0x30 := by omega
  have hhigh : c.toNat ≤ 0x39 := by omega
  simp [isAlphanumeric, Unicode.isNumber, Unicode.numberRanges, CodeRange.covers, hlow, hhigh]

namespace Opening

/-- The one character that opens a lexeme of this kind, where there is only one. -/
def marker? : Opening → Option Char
  | .lineFeed => some '\n'
  | .directive => some '%'
  | .comment => some '#'
  | .comma => some ','
  | .colon => some ':'
  | .register => some '$'
  | .zero => some '0'
  | _ => none

theorem eq_marker {c m : Char} (h : marker? (of c) = some m) : c = m := by
  unfold of at h
  repeat' split at h
  all_goals first | (cases h; assumption) | cases h

/-- Beside the markers only the classes are asked for. -/
theorem of_of_notMem_markers {c : Char} (h : c ∉ markers) :
    of c = if Unicode.isWhiteSpace c then .blank else if isNameChar c then .word
      else if c.isDigit ∨ c = '-' then .number else .nothing := by
  simp only [markers, List.mem_cons, List.not_mem_nil, or_false, not_or] at h
  simp [of, h]

theorem notMem_markers {c : Char} (h : marker? (of c) = none) : c ∉ markers := by
  have hmarker : ∀ m ∈ markers, marker? (of m) = some m := by
    rw [forall_mem_markers]
    decide
  intro hmem
  rw [hmarker c hmem] at h
  cases h

theorem of_eq_blank_iff {c : Char} :
    of c = .blank ↔ Unicode.isWhiteSpace c = true ∧ c ≠ '\n' := by
  constructor
  · intro h
    have hline : c ≠ '\n' := by
      rintro rfl
      cases h
    rw [of_of_notMem_markers (notMem_markers (by rw [h]; rfl))] at h
    grind
  · rintro ⟨hspace, hline⟩
    have hmarkers : c ∉ markers := by
      intro hmem
      simp [isWhiteSpace_eq_false_of_mem_markers c hmem hline] at hspace
    rw [of_of_notMem_markers hmarkers, if_pos hspace]

theorem of_eq_word_iff {c : Char} : of c = .word ↔ isNameChar c = true := by
  refine ⟨isNameChar_of_of_eq_word, fun hname ↦ ?_⟩
  have hmarkers : c ∉ markers := by
    intro hmem
    simp [isNameChar_eq_false_of_mem_markers c hmem] at hname
  have hspace : ¬Unicode.isWhiteSpace c = true := by
    intro hspace
    simp [isNameChar_eq_false_of_isWhiteSpace hspace] at hname
  rw [of_of_notMem_markers hmarkers, if_neg hspace, if_pos hname]

theorem of_eq_number_iff {c : Char} : of c = .number ↔ OpensNumber c ∧ c ≠ '0' := by
  constructor
  · intro h
    have hzero : c ≠ '0' := by
      rintro rfl
      cases h
    rw [of_of_notMem_markers (notMem_markers (by rw [h]; rfl))] at h
    unfold OpensNumber
    grind
  · rintro ⟨hdigit | rfl, hzero⟩
    · have hmarkers : c ∉ markers := by
        intro hmem
        simp [isDigit_eq_false_of_mem_markers c hmem hzero] at hdigit
      rw [of_of_notMem_markers hmarkers]
      simp [hdigit, isWhiteSpace_eq_false_of_isDigit hdigit, isNameChar_eq_false_of_isDigit hdigit]
    · rfl

theorem of_eq_nothing_iff {c : Char} :
    of c = .nothing ↔ c ∉ markers ∧ Unicode.isWhiteSpace c = false ∧ isNameChar c = false ∧
      ¬OpensNumber c := by
  constructor
  · intro h
    have hmarkers := notMem_markers (by rw [h]; rfl)
    rw [of_of_notMem_markers hmarkers] at h
    unfold OpensNumber
    grind
  · rintro ⟨hmarkers, hspace, hname, hnumber⟩
    rw [OpensNumber] at hnumber
    rw [of_of_notMem_markers hmarkers]
    simp [hspace, hname, hnumber]

end Opening

end AsmLexer
