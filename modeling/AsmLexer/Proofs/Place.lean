import AsmLexer.Source.Position
import AsmLexer.Proofs.MaximalRun

/-!
# Places in a text

A place is reached by passing over the characters in front of it. The places so reached are exactly
the positions whose row and column can be counted in the text.
-/

namespace AsmLexer.Position

def pastOne (p : Position) (c : Char) : Position :=
  if c = '\n' then p.nextLine else p.right 1

/-- The position behind some characters that stand at `p`. -/
def past (p : Position) (chars : List Char) : Position :=
  chars.foldl pastOne p

@[simp] theorem past_nil (p : Position) : p.past [] = p := rfl

@[simp] theorem past_cons (p : Position) (c : Char) (chars : List Char) :
    p.past (c :: chars) = (p.pastOne c).past chars := rfl

theorem past_append (p : Position) (front rear : List Char) :
    p.past (front ++ rear) = (p.past front).past rear :=
  List.foldl_append

theorem past_eq_right (p : Position) {chars : List Char} (h : '\n' ∉ chars) :
    p.past chars = p.right chars.length := by
  induction chars generalizing p with
  | nil => simp
  | cons c chars ih =>
      obtain ⟨hc, htail⟩ := not_or.mp (mt List.mem_cons.mpr h)
      have hne : c ≠ '\n' := fun heq ↦ hc heq.symm
      rw [past_cons, pastOne, if_neg hne, ih _ htail, right_right, List.length_cons, Nat.add_comm]

@[simp] theorem offset_past (p : Position) (chars : List Char) :
    (p.past chars).offset = p.offset + chars.length := by
  induction chars generalizing p with
  | nil => simp
  | cons c chars ih =>
      rw [past_cons, ih, pastOne, List.length_cons]
      split
      · simp only [nextLine]
        omega
      · simp only [right]
        omega

theorem row_past (p : Position) (chars : List Char) :
    (p.past chars).row = p.row + chars.count '\n' := by
  induction chars generalizing p with
  | nil => simp
  | cons c chars ih =>
      rw [past_cons, ih, pastOne]
      by_cases hc : c = '\n'
      · subst hc
        rw [if_pos rfl, List.count_cons_self]
        simp only [nextLine]
        omega
      · rw [if_neg hc, List.count_cons_of_ne hc]
        rfl

/-! ## Counting in the text -/

/-- The offset just after the last line feed of a text, or zero if it has none. -/
def lineStart (front : List Char) : Nat :=
  (front.reverse.dropWhile (· ≠ '\n')).length

/-- Row and column are those of the offset: so many line feeds come before it, and so many
characters since the last of them. -/
structure Faithful (text : List Char) (p : Position) : Prop where
  nonneg : 0 ≤ p.offset
  le_length : p.offset ≤ text.length
  row_eq : p.row = (text.take p.offset.toNat).count '\n'
  column_eq : p.column = p.offset - lineStart (text.take p.offset.toNat)

theorem dropWhile_line {line : List Char} (h : '\n' ∉ line) (rest : List Char) :
    (line.reverse ++ rest).dropWhile (· ≠ '\n') = rest.dropWhile (· ≠ '\n') := by
  apply List.dropWhile_append_of_pos
  intro c hc
  have hne : c ≠ '\n' := by
    rintro rfl
    exact h (List.mem_reverse.mp hc)
  simpa using hne

theorem lineStart_of_notMem {line : List Char} (h : '\n' ∉ line) : lineStart line = 0 := by
  have hdrop := dropWhile_line h []
  rw [List.append_nil] at hdrop
  rw [lineStart, hdrop]
  rfl

theorem lineStart_append (front : List Char) {line : List Char} (h : '\n' ∉ line) :
    lineStart (front ++ '\n' :: line) = front.length + 1 := by
  rw [lineStart, List.reverse_append, List.reverse_cons, List.append_assoc, dropWhile_line h]
  simp

theorem exists_lastLine (front : List Char) :
    '\n' ∉ front ∨ ∃ before line, front = before ++ '\n' :: line ∧ '\n' ∉ line := by
  induction front with
  | nil => simp
  | cons c front ih =>
      rcases ih with h | ⟨before, line, rfl, h⟩
      · by_cases hc : c = '\n'
        · exact .inr ⟨[], front, by rw [hc]; rfl, h⟩
        · exact .inl (by simpa [Ne.symm hc] using h)
      · exact .inr ⟨c :: before, line, rfl, h⟩

theorem column_past_origin (front : List Char) :
    (origin.past front).column = front.length - lineStart front := by
  rcases exists_lastLine front with h | ⟨before, line, rfl, h⟩
  · rw [past_eq_right _ h, lineStart_of_notMem h]
    simp [right, origin]
  · rw [lineStart_append before h, past_append, past_cons, pastOne, if_pos rfl,
      past_eq_right _ h]
    simp only [right, nextLine, List.length_append, List.length_cons]
    omega

/-- A position that is reached from the beginning of a text. -/
def IsPlace (text : List Char) (p : Position) : Prop :=
  ∃ front rear, text = front ++ rear ∧ p = origin.past front

theorem offset_past_origin (front : List Char) : (origin.past front).offset = front.length := by
  rw [offset_past]
  exact Int.zero_add _

theorem row_past_origin (front : List Char) : (origin.past front).row = front.count '\n' := by
  rw [row_past]
  exact Int.zero_add _

theorem IsPlace.faithful {text : List Char} {p : Position} (h : IsPlace text p) :
    Faithful text p := by
  obtain ⟨front, rear, rfl, rfl⟩ := h
  have hoffset := offset_past_origin front
  have htake : (front ++ rear).take (origin.past front).offset.toNat = front := by
    rw [hoffset, Int.toNat_natCast, List.take_left]
  refine ⟨?_, ?_, ?_, ?_⟩
  · omega
  · rw [hoffset, List.length_append]
    omega
  · rw [htake, row_past_origin]
  · rw [htake, hoffset, column_past_origin]

theorem Faithful.isPlace {text : List Char} {p : Position} (h : Faithful text p) :
    IsPlace text p := by
  obtain ⟨offset, row, column⟩ := p
  have hnonneg : 0 ≤ offset := h.nonneg
  have hle : offset ≤ text.length := h.le_length
  have hlength : ((text.take offset.toNat).length : Int) = offset := by
    rw [List.length_take]
    omega
  refine ⟨text.take offset.toNat, text.drop offset.toNat, (List.take_append_drop ..).symm, ?_⟩
  rw [Position.mk.injEq]
  refine ⟨?_, ?_, ?_⟩
  · rw [offset_past_origin, hlength]
  · rw [row_past_origin]
    exact h.row_eq
  · rw [column_past_origin, hlength]
    exact h.column_eq

theorem faithful_iff_isPlace {text : List Char} {p : Position} :
    Faithful text p ↔ IsPlace text p :=
  ⟨Faithful.isPlace, IsPlace.faithful⟩

end AsmLexer.Position
