import AsmLexer.Diagnostic.Report
import AsmLexer.Proofs.OneLine
import AsmLexer.Proofs.Results
import AsmLexer.Proofs.Splitting

/-!
# Reports of the errors of a text

An error that tokenizing ends with begins in a line of the text, and the characters that it is about
stand in that line. So its report can be drawn, and the carets stand under these characters.
-/

namespace AsmLexer

open Grammar Position Text

theorem Files.tokenize_eq_ok_iff {files : Files} {id : Handle} {mode : NumericMode}
    {result : Tokenized} :
    files.tokenize id mode = .ok result ↔
      ∃ source, files.get id = .ok source ∧
        AsmLexer.tokenize .standard mode id source.chars = result := by
  rw [tokenize]
  cases files.get id with
  | error fault => simp [Except.map]
  | ok source => simp [Except.map]

theorem SourceFile.exists_mem_lines {source : SourceFile} {row : Rat} {line : String}
    (h : source.line? row = some line) :
    ∃ chars ∈ Text.lines source.chars, String.ofList chars = line := by
  obtain ⟨n, -, hline⟩ := Option.bind_eq_some_iff.mp h
  obtain ⟨chars, hchars, hline⟩ := Option.map_eq_some_iff.mp hline
  exact ⟨chars, List.mem_of_getElem? hchars, hline⟩

theorem SourceFile.oneLine_of_line? {source : SourceFile} {row : Rat} {line : String}
    (h : source.line? row = some line) : OneLine line := by
  obtain ⟨chars, hmem, rfl⟩ := exists_mem_lines h
  rw [oneLine_ofList]
  exact lineFeed_notMem_of_mem_lines _ _ hmem

namespace Diagnostic

/-- The characters of a line that the carets stand under. -/
def Diagnosis.underlined (d : Diagnosis) (line : List Char) : List Char :=
  (line.drop d.start.column.toNat).take d.width

/-- The error begins in the line with these characters, and what it is about is underlined there. -/
structure PointsAt (e : LexError) (source : SourceFile) (chars : List Char) : Prop where
  line_eq : source.line? e.start.row = some (String.ofList chars)
  nonneg : 0 ≤ e.start.column
  column_le : e.start.column ≤ chars.length
  underlines : ∀ fault range, e = .over fault range → range.start.offset < range.stop.offset →
    range.start.column + (diagnose e source).width ≤ chars.length ∧
      (diagnose e source).underlined chars =
        Text.slice source.chars range.start.offset range.stop.offset
  character : ∀ what position, e = .unexpected what position →
    ∃ c, what = String.singleton c ∧ chars[position.column.toNat]? = some c

section

variable {mode : NumericMode} {file : Handle} {source : SourceFile} {front rear : List Char}
  {e : LexError}

theorem PointsAt.of_split {before behind : List Char}
    (hline : source.line? e.start.row = some (String.ofList (before ++ behind)))
    (hcolumn : before.length = e.start.column)
    (hrange : ∀ fault range, e = .over fault range → range.start.offset < range.stop.offset →
      (Text.slice source.chars range.start.offset range.stop.offset).length =
          (diagnose e source).width ∧
        Text.slice source.chars range.start.offset range.stop.offset <+: behind)
    (hcharacter : ∀ what position, e = .unexpected what position →
      ∃ c, what = String.singleton c ∧ behind.head? = some c) :
    PointsAt e source (before ++ behind) := by
  have htoNat : e.start.column.toNat = before.length := by omega
  refine ⟨hline, by omega, ?_, ?_, ?_⟩
  · rw [List.length_append]
    omega
  · rintro fault range rfl hlt
    obtain ⟨hwidth, tail, rfl⟩ := hrange fault range rfl hlt
    have hstart : (before.length : Int) = range.start.column := hcolumn
    have hdrop : (diagnose (.over fault range) source).start.column.toNat = before.length := htoNat
    refine ⟨?_, ?_⟩
    · rw [← hstart, ← hwidth, List.length_append, List.length_append]
      omega
    · rw [Diagnosis.underlined, hdrop, ← hwidth, List.drop_left, List.take_left]
  · rintro what position rfl
    obtain ⟨c, hc, hhead⟩ := hcharacter what position rfl
    have hindex : position.column.toNat = before.length := htoNat
    refine ⟨c, hc, ?_⟩
    rw [hindex, List.getElem?_append_right (Nat.le_refl _), Nat.sub_self,
      ← List.head?_eq_getElem?, hhead]

theorem exists_pointsAt (htext : source.chars = front ++ rear)
    (h : ErrorAt mode file (origin.past front) rear e) : ∃ line, PointsAt e source line := by
  cases h with
  | @unexpected c rest hc =>
      obtain ⟨before, hcolumn, hline⟩ := source.exists_line htext
      refine ⟨_, .of_split hline hcolumn (by rintro _ _ ⟨⟩) ?_⟩
      rintro what position ⟨⟩
      exact ⟨c, rfl, by simp [hc.ne_lineFeed]⟩
  | @missing fault lead passed rest hmissing =>
      rw [List.append_assoc lead] at htext
      obtain ⟨before, hcolumn, hline⟩ := source.exists_line_past htext
      exact ⟨_, .of_split hline hcolumn (by rintro _ _ ⟨⟩) (by rintro _ _ ⟨⟩)⟩
  | @fault fault lead span rest hfault =>
      have hplace : source.chars = front ++ (lead ++ (span ++ rest)) := by
        rw [htext, List.append_assoc lead]
      obtain ⟨before, hcolumn, hline⟩ := source.exists_line_past hplace
      refine ⟨_, .of_split hline hcolumn ?_ (by rintro _ _ ⟨⟩)⟩
      rintro _ _ ⟨⟩ hlt
      dsimp only at hlt ⊢
      rw [htext, Text.slice_past]
      refine ⟨?_, ?_⟩
      · simp only [offset_past, List.length_append] at hlt
        simp only [diagnose, widthOf, Range.length, offset_past, List.length_append]
        omega
      · have hspan : '\n' ∉ span := fun hmem ↦
          hfault.lineFeed_notMem (List.mem_append_right lead hmem)
        rw [Text.takeWhile_line hspan]
        exact List.prefix_append _ _

/-! ## The report -/

theorem oneLine_text (c : Code) : OneLine c.text := by
  cases c <;> decide

theorem oneLine_message (c : Code) : OneLine c.entry.message := by
  -- A literal is the text of its characters, and only these are gone through.
  cases c <;> exact oneLine_ofList.mpr (by decide)

theorem exists_suggestion {c : Code} (hc : c ≠ .floatLiteral) :
    ∃ suggestion, c.entry.suggestion = some suggestion ∧ OneLine suggestion := by
  cases c with
  | floatLiteral => exact absurd rfl hc
  | _ => exact ⟨_, rfl, oneLine_ofList.mpr (by decide)⟩

theorem Severity.oneLine_label (s : Severity) : OneLine s.label := by
  cases s <;> decide

theorem toText_of_mem_argumentsOf_over {fault : SpanFault} {range : Range} :
    ∀ arg ∈ argumentsOf source (.over fault range),
      arg.2.toText = source.slice range.start.offset range.stop.offset := by
  cases fault <;> simp [argumentsOf, Argument.toText]

theorem oneLine_argumentsOf (htext : source.chars = front ++ rear)
    (h : ErrorAt mode file (origin.past front) rear e) :
    ∀ arg ∈ argumentsOf source e, OneLine arg.2.toText := by
  intro arg harg
  cases h with
  | @unexpected c rest hc =>
      obtain rfl := List.mem_singleton.mp harg
      simpa [OneLine, Argument.toText] using hc.ne_lineFeed.symm
  | missing hmissing => cases hmissing <;> cases harg
  | @fault fault lead span rest hfault =>
      rw [toText_of_mem_argumentsOf_over arg harg, SourceFile.slice, oneLine_ofList, htext,
        Text.slice_past]
      exact fun hmem ↦ hfault.lineFeed_notMem (List.mem_append_right lead hmem)

theorem codeOf_ne_floatLiteral (h : ErrorAt mode file (origin.past front) rear e) :
    codeOf e ≠ .floatLiteral := by
  cases h with
  | unexpected => simp [codeOf]
  | missing hmissing => cases hmissing <;> simp [codeOf]
  | fault hfault => cases hfault <;> simp [codeOf]

end

theorem oneLine_repeated (count : Nat) {c : Char} (hc : c ≠ '\n') : OneLine (repeated count c) := by
  rw [repeated, oneLine_ofList, List.mem_replicate]
  rintro ⟨-, rfl⟩
  exact hc rfl

namespace Diagnosis

variable {d : Diagnosis} {source : SourceFile} {line suggestion : String}

theorem oneLine_gutter (d : Diagnosis) : OneLine d.gutter := by
  have hblanks := oneLine_repeated d.lineNumber.length (by decide : ' ' ≠ '\n')
  exact (OneLine.append (by decide) hblanks).append (by decide)

theorem oneLine_pointer (d : Diagnosis) : OneLine d.pointer :=
  (d.oneLine_gutter.append (oneLine_repeated _ (by decide))).append (oneLine_repeated _ (by decide))

theorem oneLine_location {path : String} (hpath : OneLine path) : OneLine (d.location path) :=
  ((OneLine.append (by decide) hpath).append (by decide)).append (oneLine_displayNearest _)

theorem oneLine_sourceLine (hline : OneLine line) : OneLine (d.sourceLine line) :=
  ((OneLine.append (by decide) (oneLine_toString_int _)).append (by decide)).append hline

/-- The lines of a report that is drawn. -/
def drawn (d : Diagnosis) (path line : String) : List String :=
  [d.header, d.location path, d.gutter, d.sourceLine line, d.pointer] ++ d.help

theorem lines_eq_drawn (hline : source.line? d.start.row = some line)
    (hcolumn : 0 ≤ d.start.column) : d.lines source = .ok (d.drawn source.path line) := by
  rw [lines, hline]
  simp only [if_neg (Int.not_lt.mpr hcolumn)]
  rfl

/-- The report of an error that the catalog has a suggestion for. -/
def framed (d : Diagnosis) (path line suggestion : String) : List String :=
  [d.header, d.location path, d.gutter, d.sourceLine line, d.pointer, d.gutter,
    "   = help: " ++ Template.interpolate suggestion d.args]

theorem lines_eq_framed (hline : source.line? d.start.row = some line)
    (hcolumn : 0 ≤ d.start.column) (hsuggestion : d.entry.suggestion = some suggestion) :
    d.lines source = .ok (d.framed source.path line suggestion) := by
  rw [lines_eq_drawn hline hcolumn, drawn, help, hsuggestion]
  rfl

end Diagnosis

section

variable {mode : NumericMode} {file : Handle} {source : SourceFile} {front rear : List Char}
  {e : LexError}

theorem oneLine_header (hmessage : OneLine (diagnose e source).message) :
    OneLine (diagnose e source).header :=
  ((((Severity.oneLine_label _).append (by decide)).append (oneLine_text (codeOf e))).append
    (by decide)).append hmessage

theorem oneLine_framed {line suggestion : String} (htext : source.chars = front ++ rear)
    (h : ErrorAt mode file (origin.past front) rear e)
    (hpath : OneLine source.path) (hline : OneLine line) (hsuggestion : OneLine suggestion) :
    ∀ text ∈ (diagnose e source).framed source.path line suggestion, OneLine text := by
  have hargs := oneLine_argumentsOf htext h
  have hmessage := Template.oneLine_interpolate (oneLine_message (codeOf e)) hargs
  have hhelp := OneLine.append (by decide : OneLine "   = help: ")
    (Template.oneLine_interpolate hsuggestion hargs)
  simp only [Diagnosis.framed, List.forall_mem_cons]
  exact ⟨oneLine_header hmessage, Diagnosis.oneLine_location hpath, Diagnosis.oneLine_gutter _,
    Diagnosis.oneLine_sourceLine hline, Diagnosis.oneLine_pointer _, Diagnosis.oneLine_gutter _,
    hhelp, List.forall_mem_nil _⟩

/-- The report of an error at a fault can be drawn. -/
theorem exists_report (htext : source.chars = front ++ rear)
    (h : ErrorAt mode file (origin.past front) rear e) :
    ∃ line suggestion, PointsAt e source line ∧ OneLine suggestion ∧
      report e source = .ok ("\n".intercalate
        ((diagnose e source).framed source.path (String.ofList line) suggestion)) := by
  obtain ⟨line, hpoints⟩ := exists_pointsAt htext h
  obtain ⟨suggestion, hsuggestion, hhelp⟩ := exists_suggestion (codeOf_ne_floatLiteral h)
  have hlines := @Diagnosis.lines_eq_framed (diagnose e source) source (String.ofList line)
    suggestion hpoints.line_eq hpoints.nonneg hsuggestion
  exact ⟨line, suggestion, hpoints, hhelp, congrArg (Except.map ("\n".intercalate ·)) hlines⟩

/-- The carets end in the line, or just behind it. -/
theorem PointsAt.column_add_width_le {line : List Char} (h : PointsAt e source line) :
    e.start.column.toNat + (diagnose e source).width ≤ line.length + 1 := by
  have hnonneg := h.nonneg
  have hle := h.column_le
  rcases e with ⟨what, position⟩ | ⟨fault, position⟩ | ⟨fault, range⟩
  · simp only [diagnose, widthOf]
    omega
  · simp only [diagnose, widthOf]
    omega
  · by_cases hlt : range.start.offset < range.stop.offset
    · have hwidth := (h.underlines fault range rfl hlt).1
      have hstart : (LexError.over fault range).start = range.start := rfl
      rw [hstart] at hnonneg ⊢
      omega
    · have hwidth : (diagnose (.over fault range) source).width = 1 := by
        simp only [diagnose, widthOf, Range.length]
        omega
      omega

theorem PointsAt.isTooLong_eq_false {line : List Char} (h : PointsAt e source line)
    (hlimit : source.chars.length < textLimit) : (diagnose e source).isTooLong source = false := by
  obtain ⟨chars, hmem, hchars⟩ := SourceFile.exists_mem_lines h.line_eq
  obtain rfl := String.ofList_injective hchars
  have hline := length_le_of_mem_lines _ _ hmem
  have hwidth := h.column_add_width_le
  have hstart : (diagnose e source).start = e.start := rfl
  rw [Diagnosis.isTooLong, hstart, Bool.and_eq_false_imp]
  intro _
  exact decide_eq_false (by omega)

end

/-- An error of a text is reported with the line that it points at. -/
theorem report_tokenize (files : Files) (id : Handle) (mode : NumericMode) (e : LexError)
    (h : files.tokenize id mode = .ok (.error e)) :
    ∃ source line text, files.get id = .ok source ∧ PointsAt e source line ∧
      report e source = .ok text ∧
      (source.chars.length < textLimit → boundedReport e source = .ok text) ∧
      (OneLine source.path →
        (Text.lines text.toList).length = 7 ∧
          (Text.lines text.toList)[3]? =
            some ((" " ++ toString (e.start.row + 1) ++ " | ").toList ++ line) ∧
          (Text.lines text.toList)[4]? = some (diagnose e source).pointer.toList) := by
  obtain ⟨source, hsource, htokenize⟩ := Files.tokenize_eq_ok_iff.mp h
  obtain ⟨front, rear, htext, herror⟩ := exists_errorAt_of_tokenize htokenize
  obtain ⟨line, suggestion, hpoints, hhelp, hreport⟩ := exists_report htext herror
  refine ⟨source, line, _, hsource, hpoints, hreport, ?_, ?_⟩
  · intro hlimit
    rw [boundedReport, hpoints.isTooLong_eq_false hlimit, hreport]
    rfl
  · intro hpath
    have hline := SourceFile.oneLine_of_line? hpoints.line_eq
    have hnumbered : ((diagnose e source).sourceLine (String.ofList line)).toList =
        (" " ++ toString (e.start.row + 1) ++ " | ").toList ++ line := by
      rw [Diagnosis.sourceLine, String.toList_append, String.toList_ofList]
      rfl
    rw [lines_intercalate_lineFeed (oneLine_framed htext herror hpath hline hhelp)
      (List.cons_ne_nil _ _), ← hnumbered]
    exact ⟨rfl, rfl, rfl⟩

/-- Columns count characters, also those outside the basic plane. -/
theorem report_tokenize_astral :
    (Files.register {} "main.vasm" "ret\n𝒳 %bogus # no").1.tokenize 0 .unsigned =
        .ok (.error (.over .directive ⟨⟨7, 1, 3⟩, ⟨12, 1, 8⟩, 0⟩)) ∧
      ∃ text,
        report (.over .directive ⟨⟨7, 1, 3⟩, ⟨12, 1, 8⟩, 0⟩)
            ⟨0, "main.vasm", "ret\n𝒳 %bogus # no"⟩ = .ok text ∧
          (Text.lines text.toList).length = 7 ∧
            (Text.lines text.toList)[3]? = some " 2 | 𝒳 %bogus # no".toList ∧
              (Text.lines text.toList)[4]? = some "   |    ^^^^^".toList := by
  have hget := Files.get_of_register
    (rfl : Files.register {} "main.vasm" "ret\n𝒳 %bogus # no" = (_, 0))
  have htokenize := Files.tokenize_eq_ok_iff.mpr ⟨_, hget, (by decide +kernel :
    AsmLexer.tokenize .standard .unsigned 0 "ret\n𝒳 %bogus # no".toList =
      .error (.over .directive ⟨⟨7, 1, 3⟩, ⟨12, 1, 8⟩, 0⟩))⟩
  obtain ⟨source, line, text, hsource, hpoints, hreport, -, hlines⟩ :=
    report_tokenize _ 0 .unsigned _ htokenize
  obtain rfl : source = ⟨0, "main.vasm", "ret\n𝒳 %bogus # no"⟩ :=
    Except.ok.inj (hsource.symm.trans hget)
  obtain ⟨hlength, hnumbered, hpointer⟩ := hlines (by decide)
  obtain rfl : "𝒳 %bogus # no".toList = line := by
    have hline : (⟨0, "main.vasm", "ret\n𝒳 %bogus # no"⟩ : SourceFile).line? 1 =
        some (String.ofList "𝒳 %bogus # no".toList) := by
      decide +kernel
    exact String.ofList_injective (Option.some.inj (hline.symm.trans hpoints.line_eq))
  refine ⟨htokenize, text, hreport, hlength, hnumbered.trans ?_, hpointer.trans ?_⟩
  · decide +kernel
  · decide +kernel

end Diagnostic

end AsmLexer
