import AsmLexer.Proofs.Place
import AsmLexer.Source.Files

/-!
# Rows and columns in the lines of a text

The lines of a text are what stands between its line feeds. The row of a place is the number of its
line, and its column is how much of that line comes before it.
-/

namespace AsmLexer

open Position

namespace Text

theorem lines_eq_splitOn (text : List Char) : lines text = text.splitOn '\n' := by
  induction text with
  | nil => rfl
  | cons c text ih =>
      obtain ⟨line, rest, hlines⟩ := List.exists_cons_of_ne_nil (lines_ne_nil text)
      rw [lines_cons, List.splitOn, List.splitOnP_cons_eq_if_modifyHead, ← List.splitOn, ← ih,
        hlines, pushFront]
      simp

theorem lines_append_lineFeed (above below : List Char) :
    lines (above ++ '\n' :: below) = lines above ++ lines below := by
  rw [lines_eq_splitOn, lines_eq_splitOn, lines_eq_splitOn]
  exact List.splitOnP_append_cons above below rfl

theorem lines_intercalate {parts : List (List Char)} (hparts : ∀ part ∈ parts, '\n' ∉ part)
    (hne : parts ≠ []) : lines (['\n'].intercalate parts) = parts := by
  rw [lines_eq_splitOn]
  exact List.splitOn_intercalate '\n' hparts hne

theorem lineFeed_notMem_of_mem_lines (text : List Char) : ∀ line ∈ lines text, '\n' ∉ line := by
  induction text with
  | nil => simp
  | cons c text ih =>
      obtain ⟨first, rest, hlines⟩ := List.exists_cons_of_ne_nil (lines_ne_nil text)
      rw [hlines, List.forall_mem_cons] at ih
      by_cases hc : c = '\n'
      · simpa [pushFront, hc, hlines] using ih
      · simpa [pushFront, hc, hlines, Ne.symm hc] using ih

theorem length_le_of_mem_lines (text : List Char) :
    ∀ line ∈ lines text, line.length ≤ text.length := by
  induction text with
  | nil => simp
  | cons c text ih =>
      obtain ⟨first, rest, hlines⟩ := List.exists_cons_of_ne_nil (lines_ne_nil text)
      rw [hlines, List.forall_mem_cons] at ih
      obtain ⟨hfirst, hrest⟩ := ih
      have hrest' : ∀ line ∈ rest, line.length ≤ (c :: text).length :=
        fun line hline ↦ Nat.le_succ_of_le (hrest line hline)
      by_cases hc : c = '\n'
      · simpa [pushFront, hc, hlines, Nat.le_succ_of_le hfirst] using hrest'
      · simpa [pushFront, hc, hlines, hfirst] using hrest'

theorem takeWhile_line {line : List Char} (h : '\n' ∉ line) (rest : List Char) :
    (line ++ rest).takeWhile (· ≠ '\n') = line ++ rest.takeWhile (· ≠ '\n') := by
  apply List.takeWhile_append_of_pos
  intro c hc
  have hne : c ≠ '\n' := by
    rintro rfl
    exact h hc
  simpa using hne

theorem head?_lines (text : List Char) :
    (lines text).head? = some (text.takeWhile (· ≠ '\n')) := by
  induction text with
  | nil => rfl
  | cons c text ih =>
      obtain ⟨line, rest, hlines⟩ := List.exists_cons_of_ne_nil (lines_ne_nil text)
      rw [hlines] at ih
      obtain rfl : line = text.takeWhile (· ≠ '\n') := Option.some.inj ih
      by_cases hc : c = '\n'
      · simp [pushFront, hc]
      · simp [pushFront, hc, hlines]

end Text

/-- The line of a place is what comes before the place in its line, and then what follows up to the
next line feed. -/
theorem Position.exists_line (front rear : List Char) :
    ∃ before : List Char, before.length = (origin.past front).column ∧
      (Text.lines (front ++ rear))[front.count '\n']? =
        some (before ++ rear.takeWhile (· ≠ '\n')) := by
  have hfirst (line : List Char) (hline : '\n' ∉ line) :
      (Text.lines (line ++ rear))[0]? = some (line ++ rear.takeWhile (· ≠ '\n')) := by
    rw [← List.head?_eq_getElem?, Text.head?_lines, Text.takeWhile_line hline]
  rcases exists_lastLine front with hline | ⟨above, line, rfl, hline⟩
  · refine ⟨front, ?_, ?_⟩
    · rw [column_past_origin, lineStart_of_notMem hline]
      simp
    · rw [List.count_eq_zero.mpr hline]
      exact hfirst front hline
  · have hcount : (above ++ '\n' :: line).count '\n' = (Text.lines above).length := by
      rw [List.count_append, List.count_cons_self, List.count_eq_zero.mpr hline,
        Text.length_lines]
    refine ⟨line, ?_, ?_⟩
    · rw [column_past_origin, lineStart_append above hline, List.length_append, List.length_cons]
      omega
    · rw [hcount, List.append_assoc, List.cons_append, Text.lines_append_lineFeed,
        List.getElem?_append_right (Nat.le_refl _), Nat.sub_self]
      exact hfirst line hline

theorem SourceFile.exists_line {source : SourceFile} {front rear : List Char}
    (htext : source.chars = front ++ rear) :
    ∃ before : List Char, before.length = (origin.past front).column ∧
      source.line? (origin.past front).row =
        some (String.ofList (before ++ rear.takeWhile (· ≠ '\n'))) := by
  obtain ⟨before, hcolumn, hline⟩ := Position.exists_line front rear
  refine ⟨before, hcolumn, ?_⟩
  have hrow : Number.natural? ((origin.past front).row : Rat) = some (front.count '\n') := by
    rw [row_past_origin]
    rfl
  rw [line?, hrow, htext]
  simp [hline]

theorem SourceFile.exists_line_past {source : SourceFile} {front lead rest : List Char}
    (htext : source.chars = front ++ (lead ++ rest)) :
    ∃ before : List Char, before.length = ((origin.past front).past lead).column ∧
      source.line? ((origin.past front).past lead).row =
        some (String.ofList (before ++ rest.takeWhile (· ≠ '\n'))) := by
  rw [← List.append_assoc] at htext
  rw [← past_append]
  exact source.exists_line htext

end AsmLexer
