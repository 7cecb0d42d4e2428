import AsmLexer.Proofs.Coordinates
import AsmLexer.Proofs.ErrorReport
import AsmLexer.Proofs.Interpolation

/-!
# The layout of a report

An error may be made by hand and point anywhere, also where no text is. If it begins in a line of
the source and not in front of it, the line is drawn with the carets below, and the bars stand below
one another however many digits the number of the line has.
-/

namespace AsmLexer

open Text

namespace Text

/-- The character stands at the index, and nowhere before it. -/
def FirstAt (c : Char) (i : Nat) (chars : List Char) : Prop :=
  chars[i]? = some c ∧ c ∉ chars.take i

theorem firstAt_append {c : Char} {front : List Char} (hfront : c ∉ front) (back : List Char) :
    FirstAt c front.length (front ++ c :: back) := by
  refine ⟨?_, ?_⟩
  · simp
  · rwa [List.take_left]

end Text

theorem Template.interpolate_of_notMem {template : String} (h : '\x7b' ∉ template.toList)
    (args : List (String × Argument)) : interpolate template args = template := by
  have hplain : (⟨template.toList, []⟩ : Decomposition).Decomposes template.toList :=
    ⟨by simp [Decomposition.render], by simp, slotFree_of_notMem h, by simp⟩
  rw [hplain.interpolate_eq]
  simp [Decomposition.render]

namespace Diagnostic

theorem plain_suggestion {c : Code} {suggestion : String}
    (h : c.entry.suggestion = some suggestion) :
    '\x7b' ∉ suggestion.toList ∧ OneLine suggestion := by
  cases c with
  | floatLiteral => cases h
  | _ =>
      obtain rfl := Option.some.inj h
      exact ⟨(String.toList_ofList ▸ by decide), oneLine_ofList.mpr (by decide)⟩

namespace Diagnosis

variable (d : Diagnosis)

/-- Where the bars stand: behind the number of the line, which has a blank on either side. -/
def bar (d : Diagnosis) : Nat :=
  d.lineNumber.length + 2

theorem toList_gutter : d.gutter.toList = List.replicate d.bar ' ' ++ ['|', ' '] := by
  rw [gutter, repeated, bar, List.replicate_succ, List.replicate_succ']
  simp

theorem toList_sourceLine (line : String) :
    (d.sourceLine line).toList =
      (' ' :: d.lineNumber.toList ++ [' ']) ++ '|' :: ' ' :: line.toList := by
  rw [sourceLine]
  simp

theorem toList_pointer :
    d.pointer.toList = List.replicate d.bar ' ' ++
      '|' :: ' ' :: (List.replicate d.start.column.toNat ' ' ++ List.replicate d.width '^') := by
  rw [pointer, String.toList_append, String.toList_append, toList_gutter]
  simp [repeated]

theorem notMem_blanks {c : Char} (hc : c ≠ ' ') (count : Nat) : c ∉ List.replicate count ' ' :=
  fun hmem ↦ hc (List.eq_of_mem_replicate hmem)

theorem bar_gutter : FirstAt '|' d.bar d.gutter.toList := by
  have h := firstAt_append (notMem_blanks (by decide : '|' ≠ ' ') d.bar) [' ']
  rwa [List.length_replicate, ← toList_gutter] at h

theorem bar_sourceLine (line : String) : FirstAt '|' d.bar (d.sourceLine line).toList := by
  have hnumber : '|' ∉ d.lineNumber.toList :=
    Grammar.notMem_toString_int (by decide) (by decide) _
  have hfront : '|' ∉ ' ' :: d.lineNumber.toList ++ [' '] := by
    simpa using hnumber
  have hlength : (' ' :: d.lineNumber.toList ++ [' ']).length = d.bar := by
    simp [bar, String.length_toList]
  have h := firstAt_append hfront (' ' :: line.toList)
  rwa [hlength, ← toList_sourceLine] at h

theorem bar_pointer : FirstAt '|' d.bar d.pointer.toList := by
  have h := firstAt_append (notMem_blanks (by decide : '|' ≠ ' ') d.bar)
    (' ' :: (List.replicate d.start.column.toNat ' ' ++ List.replicate d.width '^'))
  rwa [List.length_replicate, ← toList_pointer] at h

/-- What comes before the carets. -/
def margin (d : Diagnosis) : List Char :=
  List.replicate d.bar ' ' ++ ['|', ' '] ++ List.replicate d.start.column.toNat ' '

theorem length_margin : d.margin.length = d.bar + 2 + d.start.column.toNat := by
  rw [margin, List.length_append, List.length_append, List.length_replicate,
    List.length_replicate]
  rfl

theorem toList_pointer_eq_margin : d.pointer.toList = d.margin ++ List.replicate d.width '^' := by
  rw [toList_pointer, margin]
  simp

theorem caret_notMem_margin : '^' ∉ d.margin := by
  simp [margin]

theorem first_caret_pointer (hwidth : 0 < d.width) :
    FirstAt '^' (d.bar + 2 + d.start.column.toNat) d.pointer.toList := by
  obtain ⟨more, hmore⟩ := Nat.exists_eq_succ_of_ne_zero (Nat.ne_of_gt hwidth)
  rw [toList_pointer_eq_margin, hmore, List.replicate_succ, ← length_margin]
  exact firstAt_append d.caret_notMem_margin _

theorem count_caret_pointer : d.pointer.toList.count '^' = d.width := by
  rw [toList_pointer_eq_margin, List.count_append, List.count_eq_zero.mpr d.caret_notMem_margin,
    List.count_replicate_self, Nat.zero_add]

end Diagnosis

/-! ## The lines of a drawn report -/

/-- How many carets an error is drawn with. -/
def caretsOf : LexError → Int
  | .over _ range => max 1 (range.stop.offset - range.start.offset)
  | _ => 1

theorem natCast_widthOf (e : LexError) : (widthOf e : Int) = caretsOf e := by
  rcases e with ⟨what, position⟩ | ⟨fault, position⟩ | ⟨fault, range⟩
  · rfl
  · rfl
  · simp only [widthOf, caretsOf, Range.length]
    omega

/-- The lines below the carets. -/
def helpBelow (gutter : String) : Option String → List String
  | some suggestion => [gutter, "   = help: " ++ suggestion]
  | none => []

/-- The gutter, the numbered line and the carets stand below one another: the bars at the index
`bar`, the text of the line two further on, and the carets as far into it as the error begins. -/
structure Aligned (e : LexError) (bar : Nat) (line gutter numbered pointer : String) : Prop where
  gutter_eq : gutter = String.ofList (List.replicate bar ' ') ++ "| "
  numbered_eq : numbered = " " ++ toString (e.start.row + 1) ++ " | " ++ line
  length_number : (" " ++ toString (e.start.row + 1) ++ " | ").length = bar + 2
  bar_gutter : FirstAt '|' bar gutter.toList
  bar_numbered : FirstAt '|' bar numbered.toList
  bar_pointer : FirstAt '|' bar pointer.toList
  first_caret : FirstAt '^' (bar + 2 + e.start.column.toNat) pointer.toList
  carets : (pointer.toList.count '^' : Int) = caretsOf e

theorem widthOf_pos (e : LexError) : 0 < widthOf e := by
  rcases e with ⟨what, position⟩ | ⟨fault, position⟩ | ⟨fault, range⟩
  · exact Nat.one_pos
  · exact Nat.one_pos
  · simp only [widthOf]
    omega

theorem length_numberFront (number : String) :
    (" " ++ number ++ " | ").length = number.length + 2 + 2 := by
  have hends : " ".length + " | ".length = 4 := by decide
  rw [String.length_append, String.length_append]
  omega

theorem aligned_diagnose (e : LexError) (source : SourceFile) (line : String) :
    Aligned e (diagnose e source).bar line (diagnose e source).gutter
      ((diagnose e source).sourceLine line) (diagnose e source).pointer where
  gutter_eq := by
    apply String.toList_injective
    rw [Diagnosis.toList_gutter]
    simp
  numbered_eq := rfl
  length_number := length_numberFront _
  bar_gutter := Diagnosis.bar_gutter _
  bar_numbered := Diagnosis.bar_sourceLine _ line
  bar_pointer := Diagnosis.bar_pointer _
  first_caret := Diagnosis.first_caret_pointer _ (widthOf_pos e)
  carets := by
    rw [Diagnosis.count_caret_pointer]
    exact natCast_widthOf e

/-! ## Every report -/

section

variable {e : LexError} {source : SourceFile} {line : String}

theorem report_of_not_hasRow (hrow : ¬ source.HasRow e.start.row) :
    report e source =
      .ok ((diagnose e source).header ++ "\n" ++ (diagnose e source).location source.path) := by
  have hnone : source.line? (diagnose e source).start.row = none := by
    rw [← Option.not_isSome_iff_eq_none, Option.isSome_iff_exists]
    exact (source.exists_line?_iff _).not.mpr hrow
  rw [report, Diagnosis.lines, hnone]
  simp [Except.map, String.intercalate_cons_cons]

theorem report_of_negative (hrow : source.HasRow e.start.row) (hcolumn : e.start.column < 0) :
    report e source = .error ⟨e.start.column⟩ := by
  obtain ⟨line, hline⟩ := (source.exists_line?_iff _).mpr hrow
  have hline' : source.line? (diagnose e source).start.row = some line := hline
  have hcolumn' : (diagnose e source).start.column < 0 := hcolumn
  rw [report, Diagnosis.lines, hline']
  simp only [if_pos hcolumn']
  rfl

theorem report_of_line? (hline : source.line? e.start.row = some line)
    (hcolumn : 0 ≤ e.start.column) :
    report e source = .ok ("\n".intercalate ((diagnose e source).drawn source.path line)) := by
  have hlines := @Diagnosis.lines_eq_drawn (diagnose e source) source line hline hcolumn
  exact congrArg (Except.map ("\n".intercalate ·)) hlines

theorem report_eq_error_iff (e : LexError) (source : SourceFile) (fault : NegativeColumn) :
    report e source = .error fault ↔
      source.HasRow e.start.row ∧ e.start.column < 0 ∧ fault = ⟨e.start.column⟩ := by
  constructor
  · intro h
    by_cases hrow : source.HasRow e.start.row
    · by_cases hcolumn : e.start.column < 0
      · exact ⟨hrow, hcolumn, Except.error.inj (h.symm.trans (report_of_negative hrow hcolumn))⟩
      · obtain ⟨line, hline⟩ := (source.exists_line?_iff _).mpr hrow
        rw [report_of_line? hline (Int.not_lt.mp hcolumn)] at h
        cases h
    · rw [report_of_not_hasRow hrow] at h
      cases h
  · rintro ⟨hrow, hcolumn, rfl⟩
    exact report_of_negative hrow hcolumn

theorem help_diagnose (e : LexError) (source : SourceFile) :
    (diagnose e source).help =
      helpBelow (diagnose e source).gutter (codeOf e).entry.suggestion := by
  have hentry : (diagnose e source).entry = (codeOf e).entry := rfl
  rw [Diagnosis.help, hentry]
  cases hsuggestion : (codeOf e).entry.suggestion with
  | none => rfl
  | some suggestion =>
      dsimp only
      rw [Template.interpolate_of_notMem (plain_suggestion hsuggestion).1]
      rfl

theorem oneLine_helpBelow {gutter : String} (hgutter : OneLine gutter) (c : Code) :
    ∀ text ∈ helpBelow gutter c.entry.suggestion, OneLine text := by
  cases hsuggestion : c.entry.suggestion with
  | none => exact List.forall_mem_nil _
  | some suggestion =>
      have hhelp := OneLine.append (by decide : OneLine "   = help: ")
        (plain_suggestion hsuggestion).2
      simp only [helpBelow, List.forall_mem_cons]
      exact ⟨hgutter, hhelp, List.forall_mem_nil _⟩

theorem oneLine_drawn (hline : source.line? e.start.row = some line) (hpath : OneLine source.path)
    (hmessage : OneLine (diagnose e source).message) :
    ∀ text ∈ (diagnose e source).drawn source.path line, OneLine text := by
  have hgutter := Diagnosis.oneLine_gutter (diagnose e source)
  rw [Diagnosis.drawn, help_diagnose, List.forall_mem_append]
  refine ⟨?_, oneLine_helpBelow hgutter _⟩
  simp only [List.forall_mem_cons]
  exact ⟨oneLine_header hmessage, Diagnosis.oneLine_location hpath, hgutter,
    Diagnosis.oneLine_sourceLine (SourceFile.oneLine_of_line? hline), Diagnosis.oneLine_pointer _,
    List.forall_mem_nil _⟩

end

/-- The report of any error: it cannot be drawn if the error begins in front of its line, it is not
drawn if there is no such line, and else its lines are these. -/
theorem report_layout (e : LexError) (source : SourceFile) :
    (∀ fault, report e source = .error fault ↔
        source.HasRow e.start.row ∧ e.start.column < 0 ∧ fault = ⟨e.start.column⟩) ∧
      (¬ source.HasRow e.start.row →
        report e source = .ok
          ((diagnose e source).header ++ "\n" ++ (diagnose e source).location source.path)) ∧
      (source.HasRow e.start.row → 0 ≤ e.start.column → OneLine source.path →
        OneLine (diagnose e source).message →
        ∃ text line bar gutter numbered pointer, report e source = .ok text ∧
          source.line? e.start.row = some line ∧
          Text.lines text.toList =
            ([(diagnose e source).header, (diagnose e source).location source.path, gutter,
              numbered, pointer] ++ helpBelow gutter (codeOf e).entry.suggestion).map
                String.toList ∧
          Aligned e bar line gutter numbered pointer) := by
  refine ⟨report_eq_error_iff e source, report_of_not_hasRow, ?_⟩
  intro hrow hcolumn hpath hmessage
  obtain ⟨line, hline⟩ := (source.exists_line?_iff _).mpr hrow
  refine ⟨_, line, _, _, _, _, report_of_line? hline hcolumn, hline, ?_,
    aligned_diagnose e source line⟩
  rw [lines_intercalate_lineFeed (oneLine_drawn hline hpath hmessage) (List.cons_ne_nil _ _),
    Diagnosis.drawn, help_diagnose]

/-- The range ends before it begins, behind the end of a line with a number of two digits, and there
is no suggestion. -/
theorem report_layout_reversed :
    report (.over .floatLiteral ⟨⟨14, 9, 5⟩, ⟨3, 0, 0⟩, 0⟩)
        ⟨0, "main.vasm", "\n\n\n\n\n\n\n\n\nmov"⟩ =
          .ok ("error[VMLEX006]: invalid float literal\n  --> main.vasm:10:6\n" ++
            "    | \n 10 | mov\n    |      ^") ∧
      ∃ bar, Aligned (.over .floatLiteral ⟨⟨14, 9, 5⟩, ⟨3, 0, 0⟩, 0⟩) bar "mov" "    | "
        " 10 | mov" "    |      ^" := by
  have hmessage : OneLine (diagnose (.over .floatLiteral ⟨⟨14, 9, 5⟩, ⟨3, 0, 0⟩, 0⟩)
      ⟨0, "main.vasm", "\n\n\n\n\n\n\n\n\nmov"⟩).message :=
    Template.oneLine_interpolate (oneLine_message .floatLiteral) (List.forall_mem_nil _)
  obtain ⟨text, line, bar, gutter, numbered, pointer, hreport, hline, hlines, haligned⟩ :=
    (report_layout (.over .floatLiteral ⟨⟨14, 9, 5⟩, ⟨3, 0, 0⟩, 0⟩)
      ⟨0, "main.vasm", "\n\n\n\n\n\n\n\n\nmov"⟩).2.2 ⟨by decide, by decide⟩ (by decide)
        (by decide) hmessage
  have htext : text = "error[VMLEX006]: invalid float literal\n  --> main.vasm:10:6\n" ++
      "    | \n 10 | mov\n    |      ^" := by
    refine Except.ok.inj (hreport.symm.trans ?_)
    decide +kernel
  obtain rfl : "mov" = line := Option.some.inj (Eq.trans (by decide +kernel) hline)
  have hrows : Text.lines text.toList = (["error[VMLEX006]: invalid float literal",
      "  --> main.vasm:10:6", "    | ", " 10 | mov", "    |      ^"].map String.toList) := by
    rw [htext]
    decide +kernel
  have hparts := List.map_injective_iff.mpr (fun _ _ h ↦ String.toList_injective h)
    (hlines.symm.trans hrows)
  simp only [helpBelow, codeOf, Code.entry, List.append_nil, List.cons.injEq] at hparts
  obtain ⟨-, -, rfl, rfl, rfl, -⟩ := hparts
  exact ⟨htext ▸ hreport, bar, haligned⟩

end Diagnostic

end AsmLexer
