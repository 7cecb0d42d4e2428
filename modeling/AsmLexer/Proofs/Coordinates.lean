import AsmLexer.Proofs.Splitting
import AsmLexer.Proofs.SourceLines

/-!
# Offsets, and rows with columns

A piece of a file can be taken by the offsets of its ends, or by the columns of its ends from the
line of its row. For a range within one line both give the same, and a range whose ends are places
is within one line if there is no line feed in it.
-/

namespace AsmLexer

open Position Text

/-! ## Two places of a text -/

theorem Position.Faithful.exists_between {text : List Char} {p q : Position}
    (hp : Faithful text p) (hq : Faithful text q) (hle : p.offset ≤ q.offset) :
    ∃ front middle rear, text = front ++ middle ++ rear ∧ p = origin.past front ∧
      q = origin.past (front ++ middle) := by
  obtain ⟨front, behind, hfront, rfl⟩ := hp.isPlace
  obtain ⟨whole, rear, hwhole, rfl⟩ := hq.isPlace
  have hlength : front.length ≤ whole.length := by
    rw [offset_past_origin, offset_past_origin] at hle
    omega
  have hprefix : front <+: text := ⟨behind, hfront.symm⟩
  obtain ⟨middle, rfl⟩ :=
    List.prefix_of_prefix_length_le hprefix ⟨rear, hwhole.symm⟩ hlength
  exact ⟨front, middle, rear, hwhole, rfl, rfl⟩

namespace Range

variable {source : SourceFile} {file : Handle} {front middle rear : List Char}

/-- The range of the characters `middle` that come behind `front`. -/
def between (file : Handle) (front middle : List Char) : Range :=
  ⟨origin.past front, origin.past (front ++ middle), file⟩

theorem isSingleLine_between_iff (file : Handle) (front middle : List Char) :
    (between file front middle).IsSingleLine ↔ '\n' ∉ middle := by
  constructor
  · rintro ⟨hrow, -⟩
    have hrow' : (origin.past front).row = (origin.past (front ++ middle)).row := hrow
    rw [past_append, row_past _ middle] at hrow'
    apply List.count_eq_zero.mp
    omega
  · intro hline
    have hstop : origin.past (front ++ middle) = (origin.past front).right middle.length := by
      rw [past_append, past_eq_right _ hline]
    rw [between, hstop]
    apply isSingleLine_of_eq
    · rfl
    · simp only [right, length]
      omega

theorem slice_between (htext : source.chars = front ++ middle ++ rear) :
    source.slice (between file front middle).start.offset (between file front middle).stop.offset =
      String.ofList middle := by
  rw [SourceFile.slice, htext, between, offset_past_origin, offset_past_origin, slice_append]

/-- Within a line the columns of a range cut out what its offsets do. -/
theorem exists_line_between (htext : source.chars = front ++ middle ++ rear)
    (hline : '\n' ∉ middle) :
    ∃ line, source.line? (between file front middle).start.row = some (String.ofList line) ∧
      slice line (between file front middle).start.column (between file front middle).stop.column =
        middle := by
  rw [List.append_assoc] at htext
  obtain ⟨before, hcolumn, hrow⟩ := source.exists_line htext
  rw [takeWhile_line hline, ← List.append_assoc] at hrow
  have hstart : (origin.past front).column = before.length := hcolumn.symm
  have hstop : (origin.past (front ++ middle)).column = (before ++ middle).length := by
    rw [past_append, past_eq_right _ hline, List.length_append, Int.natCast_add, ← hstart]
    rfl
  refine ⟨_, hrow, ?_⟩
  rw [between, hstart, hstop, slice_append]

end Range

/-! ## The lines of a file -/

namespace Text

theorem intercalate_lines (text : List Char) : ['\n'].intercalate (lines text) = text := by
  rw [lines_eq_splitOn]
  exact List.intercalate_splitOn '\n'

end Text

namespace SourceFile

/-- The row of one of the lines, of which there is one more than there are line feeds. -/
def HasRow (source : SourceFile) (row : Int) : Prop :=
  0 ≤ row ∧ row ≤ source.chars.count '\n'

theorem line?_natCast (source : SourceFile) (n : Nat) :
    source.line? n = (lines source.chars)[n]?.map String.ofList :=
  rfl

theorem exists_line?_iff (source : SourceFile) (row : Int) :
    (∃ line, source.line? row = some line) ↔ source.HasRow row := by
  cases row with
  | ofNat n =>
      have hcast : ((Int.ofNat n : Int) : Rat) = (n : Rat) := Rat.intCast_natCast n
      rw [hcast, line?_natCast, ← Option.isSome_iff_exists, Option.isSome_map, isSome_getElem?,
        length_lines, HasRow, Int.ofNat_eq_natCast]
      omega
  | negSucc n =>
      have hnone : source.line? ((Int.negSucc n : Int) : Rat) = none := rfl
      rw [hnone, HasRow]
      simp

end SourceFile

namespace Files

variable {files : Files} {id : Handle} {source : SourceFile}

theorem line_of_get (hget : files.get id = .ok source) (row : Rat) :
    files.line id row = .ok (source.line? row) := by
  rw [line, hget]
  rfl

theorem sliceRange_of_get {r : Range} (hget : files.get r.file = .ok source) :
    files.sliceRange r = .ok (source.slice r.start.offset r.stop.offset) := by
  rw [sliceRange, hget]
  rfl

/-- A range between two places of a file is within one line if no line feed is in it, and then its
columns cut out of its line what its offsets cut out of the text. The lines are numbered from zero
to the number of line feeds, and put together they are the text. -/
theorem slices_agree (hget : files.get id = .ok source) :
    (∀ r : Range, r.file = id → Faithful source.chars r.start → Faithful source.chars r.stop →
      r.start.offset ≤ r.stop.offset →
        ∃ covered, files.sliceRange r = .ok covered ∧
          (r.IsSingleLine ↔ '\n' ∉ covered.toList) ∧
          (r.IsSingleLine → ∃ line, files.line id r.start.row = .ok (some line) ∧
            covered.toList = slice line.toList r.start.column r.stop.column)) ∧
      (∀ row : Int, (∃ line, files.line id row = .ok (some line)) ↔
        0 ≤ row ∧ row ≤ source.chars.count '\n') ∧
      ∃ rows : List String, rows.length = source.chars.count '\n' + 1 ∧
        (∀ n : Nat, files.line id n = .ok rows[n]?) ∧ "\n".intercalate rows = source.text := by
  refine ⟨?_, ?_, ?_⟩
  · rintro ⟨start, stop, file⟩ rfl hstart hstop hle
    obtain ⟨front, middle, rear, htext, rfl, rfl⟩ := hstart.exists_between hstop hle
    have hsingle := Range.isSingleLine_between_iff file front middle
    have hslice : files.sliceRange (.between file front middle) = .ok _ := sliceRange_of_get hget
    rw [Range.slice_between htext] at hslice
    refine ⟨String.ofList middle, hslice, ?_, ?_⟩
    · rw [String.toList_ofList]
      exact hsingle
    · intro hwithin
      obtain ⟨line, hrow, hcolumns⟩ :=
        @Range.exists_line_between source file _ _ _ htext (hsingle.mp hwithin)
      refine ⟨String.ofList line, ?_, ?_⟩
      · rw [line_of_get hget]
        exact congrArg Except.ok hrow
      · rw [String.toList_ofList, String.toList_ofList]
        exact hcolumns.symm
  · intro row
    simp only [line_of_get hget, Except.ok.injEq]
    exact source.exists_line?_iff row
  · refine ⟨(lines source.chars).map String.ofList, ?_, ?_, ?_⟩
    · rw [List.length_map, length_lines]
    · intro n
      rw [line_of_get hget, SourceFile.line?_natCast, List.getElem?_map]
    · apply String.toList_injective
      have hjoined := intercalate_lines source.chars
      rw [String.toList_intercalate, List.map_map]
      simpa [Function.comp_def, SourceFile.chars] using hjoined

/-- The range ends at the line feed, and a character outside the basic plane comes before it. -/
theorem slices_agree_at_lineFeed :
    (register {} "main.vasm" "ld\r\n𝒳 mov\n").1.sliceRange ⟨⟨6, 1, 2⟩, ⟨9, 1, 5⟩, 0⟩ =
        .ok "mov" ∧
      (register {} "main.vasm" "ld\r\n𝒳 mov\n").1.line 0 1 = .ok (some "𝒳 mov") ∧
        "mov".toList = slice "𝒳 mov".toList 2 5 := by
  have hget := get_of_register
    (rfl : register {} "main.vasm" "ld\r\n𝒳 mov\n" = (_, 0))
  obtain ⟨hranges, -, -⟩ := slices_agree hget
  have hstart : Faithful "ld\r\n𝒳 mov\n".toList ⟨6, 1, 2⟩ := by
    constructor <;> decide
  have hstop : Faithful "ld\r\n𝒳 mov\n".toList ⟨9, 1, 5⟩ := by
    constructor <;> decide
  obtain ⟨covered, hcovered, -, hline⟩ :=
    hranges ⟨⟨6, 1, 2⟩, ⟨9, 1, 5⟩, 0⟩ rfl hstart hstop (by decide)
  obtain ⟨line, hrow, hcolumns⟩ := hline (by decide)
  obtain rfl : "mov" = covered := Except.ok.inj (Eq.trans (by decide +kernel) hcovered)
  obtain rfl : "𝒳 mov" = line :=
    Option.some.inj (Except.ok.inj (Eq.trans (by decide +kernel) hrow))
  exact ⟨hcovered, hrow, hcolumns⟩

end Files

end AsmLexer
