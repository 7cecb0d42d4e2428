import AsmLexer.Proofs.TokenStream
import AsmLexer.Source.Cursor
import Mathlib.Data.List.Induction

/-!
# Cursors and their callers

A cursor is told by its caller what it steps over. As long as it stays within its text, the
positions on its way are faithful exactly if each line feed is stepped over as such and nothing else
is. It then knows the last characters that it has passed, and the range that it gives for them
begins at a faithful position exactly if none of them is a line feed.
-/

namespace AsmLexer

open Position Text

/-! ## Positions of one text -/

section

variable {text last : List Char} {p : Position}

theorem Position.faithful_iff_eq_past {n : Nat} (hn : n ≤ text.length) (hoffset : p.offset = n) :
    Faithful text p ↔ p = origin.past (text.take n) := by
  rw [faithful_iff_isPlace]
  constructor
  · rintro ⟨front, rear, rfl, rfl⟩
    rw [offset_past_origin] at hoffset
    rw [List.take_left' (Int.natCast_inj.mp hoffset)]
  · rintro rfl
    exact ⟨text.take n, text.drop n, (List.take_append_drop ..).symm, rfl⟩

/-- Going back by columns from behind some characters leads to where they begin only within a
line. -/
theorem Position.back_past_iff :
    (⟨(p.past last).offset - last.length, (p.past last).row,
      (p.past last).column - last.length⟩ : Position) = p ↔ '\n' ∉ last := by
  constructor
  · intro hback
    have hrow := congrArg Position.row hback
    rw [row_past] at hrow
    apply List.count_eq_zero.mp
    omega
  · intro hline
    rw [past_eq_right p hline]
    simp [right]

end

namespace Cursor

inductive Move
  | advance
  | advanceLine
deriving DecidableEq

def move (c : Cursor) : Move → Cursor
  | .advance => c.advance
  | .advanceLine => c.advanceLine

/-- The cursor over a text after some moves from its beginning. -/
def walk (text : List Char) (file : Handle) (moves : List Move) : Cursor :=
  moves.foldl move { text, file }

/-- Each move over a line feed is `advanceLine`, and each other move is `advance`. -/
def Disciplined (text : List Char) (file : Handle) (moves : List Move) : Prop :=
  ∀ before m, before ++ [m] <+: moves →
    (m = .advanceLine ↔ (walk text file before).current = some '\n')

/-- All positions on the way are faithful, the first and the last included. -/
def StaysFaithful (text : List Char) (file : Handle) (moves : List Move) : Prop :=
  ∀ before, before <+: moves → Faithful text (walk text file before).position

variable {text : List Char} {file : Handle} {moves : List Move} {m : Move}

/-! ## One move -/

theorem walk_append_singleton (text : List Char) (file : Handle) (moves : List Move) (m : Move) :
    walk text file (moves ++ [m]) = (walk text file moves).move m :=
  List.foldl_append

theorem position_move_eq_pastOne_iff {c : Cursor} {next : Char} :
    (c.move m).position = c.position.pastOne next ↔ (m = .advanceLine ↔ next = '\n') := by
  have hne : c.position.right 1 ≠ c.position.nextLine := by
    intro heq
    have hrow := congrArg Position.row heq
    simp only [right, nextLine] at hrow
    omega
  rw [pastOne]
  cases m with
  | advance =>
      by_cases hnext : next = '\n'
      · simpa [hnext, move, advance] using hne
      · simp [hnext, move, advance]
  | advanceLine =>
      by_cases hnext : next = '\n'
      · simp [hnext, move, advanceLine]
      · simpa [hnext, move, advanceLine] using hne.symm

theorem text_walk (text : List Char) (file : Handle) (moves : List Move) :
    (walk text file moves).text = text := by
  induction moves using List.reverseRecOn with
  | nil => rfl
  | append_singleton moves m ih =>
      rw [walk_append_singleton]
      cases m with
      | advance => exact ih
      | advanceLine => exact ih

theorem offset_walk (text : List Char) (file : Handle) (moves : List Move) :
    (walk text file moves).position.offset = moves.length := by
  induction moves using List.reverseRecOn with
  | nil => rfl
  | append_singleton moves m ih =>
      rw [walk_append_singleton, List.length_append, Int.natCast_add, ← ih]
      cases m with
      | advance => rfl
      | advanceLine => rfl

theorem current_walk (text : List Char) (file : Handle) (moves : List Move) :
    (walk text file moves).current = text[moves.length]? := by
  rw [current, peek, offset_walk, text_walk]
  rfl

/-! ## All moves -/

theorem faithful_walk_iff (hwithin : moves.length ≤ text.length) :
    Faithful text (walk text file moves).position ↔
      (walk text file moves).position = origin.past (text.take moves.length) :=
  faithful_iff_eq_past hwithin (offset_walk text file moves)

theorem disciplined_nil : Disciplined text file [] := by
  intro before m hbefore
  simp at hbefore

theorem disciplined_append_singleton :
    Disciplined text file (moves ++ [m]) ↔
      Disciplined text file moves ∧
        (m = .advanceLine ↔ (walk text file moves).current = some '\n') := by
  constructor
  · intro h
    refine ⟨?_, h moves m (List.prefix_refl _)⟩
    intro before m' hbefore
    exact h before m' (hbefore.trans (List.prefix_append ..))
  · rintro ⟨hmoves, hlast⟩ before m' hbefore
    rcases List.prefix_concat_iff.mp hbefore with heq | hbefore
    · obtain ⟨rfl, rfl⟩ := List.append_singleton_inj.mp heq
      exact hlast
    · exact hmoves before m' hbefore

theorem staysFaithful_append_singleton :
    StaysFaithful text file (moves ++ [m]) ↔
      StaysFaithful text file moves ∧ Faithful text (walk text file (moves ++ [m])).position := by
  constructor
  · intro h
    refine ⟨?_, h _ (List.prefix_refl _)⟩
    intro before hbefore
    exact h before (hbefore.trans (List.prefix_append ..))
  · rintro ⟨hmoves, hlast⟩ before hbefore
    rcases List.prefix_concat_iff.mp hbefore with rfl | hbefore
    · exact hlast
    · exact hmoves before hbefore

/-- From a faithful position a move leads to one if it fits the character that stands there. -/
theorem faithful_move_iff (hwithin : moves.length < text.length)
    (h : Faithful text (walk text file moves).position) :
    Faithful text (walk text file (moves ++ [m])).position ↔
      (m = .advanceLine ↔ (walk text file moves).current = some '\n') := by
  have hnext := List.getElem?_eq_getElem hwithin
  have hlength : (moves ++ [m]).length = moves.length + 1 := List.length_append
  have hpast : origin.past (text.take (moves ++ [m]).length) =
      (walk text file moves).position.pastOne text[moves.length] := by
    rw [hlength, List.take_add_one, hnext, past_append,
      ← (faithful_walk_iff (Nat.le_of_lt hwithin)).mp h]
    rfl
  have hwithin' : (moves ++ [m]).length ≤ text.length := by
    rw [hlength]
    exact hwithin
  rw [faithful_walk_iff hwithin', hpast, walk_append_singleton, position_move_eq_pastOne_iff,
    current_walk, hnext, Option.some.injEq]

theorem staysFaithful_iff (hwithin : moves.length ≤ text.length) :
    StaysFaithful text file moves ↔ Disciplined text file moves := by
  induction moves using List.reverseRecOn with
  | nil =>
      have hstart : Faithful text origin := IsPlace.faithful ⟨[], text, rfl, rfl⟩
      refine iff_of_true ?_ disciplined_nil
      intro before hbefore
      obtain rfl := List.prefix_nil.mp hbefore
      exact hstart
  | append_singleton moves m ih =>
      have hlt : moves.length < text.length := by
        rw [List.length_append] at hwithin
        exact hwithin
      rw [staysFaithful_append_singleton, disciplined_append_singleton, ih (Nat.le_of_lt hlt)]
      apply and_congr_right
      intro hmoves
      have hstays := (ih (Nat.le_of_lt hlt)).mpr hmoves
      exact faithful_move_iff hlt (hstays moves (List.prefix_refl _))

/-! ## The last characters -/

section

variable {c : Cursor} {front last rear : List Char}

theorem textOfLast_eq (htext : c.text = front ++ last ++ rear)
    (hoffset : c.position.offset = (front ++ last).length) :
    c.textOfLast last.length = last := by
  have hstart : c.position.offset - last.length = front.length := by
    rw [hoffset, List.length_append]
    omega
  rw [textOfLast, hstart, hoffset, htext, slice_append]

theorem faithful_start_rangeOfLast_iff (htext : c.text = front ++ last ++ rear)
    (hposition : c.position = origin.past (front ++ last)) :
    Faithful c.text (c.rangeOfLast last.length).start ↔ '\n' ∉ last := by
  have hle : front.length ≤ c.text.length := by
    rw [htext, List.append_assoc, List.length_append]
    exact Nat.le_add_right ..
  have hoffset : (c.rangeOfLast last.length).start.offset = front.length := by
    change c.position.offset - last.length = front.length
    rw [hposition, offset_past_origin, List.length_append]
    omega
  have htake : c.text.take front.length = front := by
    rw [htext, List.append_assoc, List.take_left]
  rw [faithful_iff_eq_past hle hoffset, htake, ← @back_past_iff last (origin.past front),
    ← past_append, ← hposition]
  rfl

end

theorem exists_last_of_le {n k : Nat} (hk : k ≤ n) (hn : n ≤ text.length) :
    ∃ front last, text.take n = front ++ last ∧ last.length = k := by
  refine ⟨(text.take n).take (n - k), (text.take n).drop (n - k),
    (List.take_append_drop ..).symm, ?_⟩
  rw [List.length_drop, List.length_take]
  omega

/-- The positions on the way of a cursor are all faithful exactly if its caller tells it the truth,
and then it knows the last characters that it has passed; their range begins at a faithful position
exactly if they lie within a line. -/
theorem staysFaithful_iff_disciplined {text : List Char} {moves : List Move} (file : Handle)
    (hwithin : moves.length ≤ text.length) :
    (StaysFaithful text file moves ↔ Disciplined text file moves) ∧
      (StaysFaithful text file moves →
        ∀ count : Int, 0 ≤ count → count ≤ (walk text file moves).position.offset →
          (Faithful text ((walk text file moves).rangeOfLast count).start ↔
            '\n' ∉ (walk text file moves).textOfLast count) ∧
          ∃ before, text.take moves.length = before ++ (walk text file moves).textOfLast count ∧
            ((walk text file moves).textOfLast count).length = count) := by
  refine ⟨staysFaithful_iff hwithin, ?_⟩
  intro hstays count hcount hle
  obtain ⟨k, rfl⟩ := Int.eq_ofNat_of_zero_le hcount
  rw [offset_walk, Int.ofNat_le] at hle
  obtain ⟨front, last, htake, rfl⟩ := exists_last_of_le hle hwithin
  have htext : (walk text file moves).text = front ++ last ++ text.drop moves.length := by
    rw [text_walk, ← htake, List.take_append_drop]
  have hposition := (faithful_walk_iff hwithin).mp (hstays moves (List.prefix_refl _))
  rw [htake] at hposition
  have hoffset : (walk text file moves).position.offset = (front ++ last).length := by
    rw [hposition, offset_past_origin]
  have hstart := faithful_start_rangeOfLast_iff htext hposition
  rw [text_walk] at hstart
  rw [textOfLast_eq htext hoffset]
  exact ⟨hstart, front, htake, rfl⟩

/-- In the second line, the range of the last character begins at a faithful position, and the range
of the last two, the first of which is the line feed, does not. -/
theorem staysFaithful_iff_disciplined_lineFeed :
    Disciplined "a\nb".toList 0 [.advance, .advanceLine, .advance] ∧
      Faithful "a\nb".toList
        ((walk "a\nb".toList 0 [.advance, .advanceLine, .advance]).rangeOfLast 1).start ∧
      ¬Faithful "a\nb".toList
        ((walk "a\nb".toList 0 [.advance, .advanceLine, .advance]).rangeOfLast 2).start := by
  have hfirst : Disciplined "a\nb".toList 0 ([] ++ [.advance]) :=
    disciplined_append_singleton.mpr ⟨disciplined_nil, by decide⟩
  have hsecond : Disciplined "a\nb".toList 0 ([.advance] ++ [.advanceLine]) :=
    disciplined_append_singleton.mpr ⟨hfirst, by decide⟩
  have hall : Disciplined "a\nb".toList 0 ([.advance, .advanceLine] ++ [.advance]) :=
    disciplined_append_singleton.mpr ⟨hsecond, by decide⟩
  obtain ⟨hiff, hlast⟩ := staysFaithful_iff_disciplined 0
    (by decide : [Move.advance, .advanceLine, .advance].length ≤ "a\nb".toList.length)
  obtain ⟨hone, -⟩ := hlast (hiff.mpr hall) 1 (by decide) (by decide)
  obtain ⟨htwo, -⟩ := hlast (hiff.mpr hall) 2 (by decide) (by decide)
  refine ⟨hall, hone.mpr (by decide), ?_⟩
  rw [htwo]
  decide

end Cursor

end AsmLexer
