/-!
# Lines

A text is split at its line feeds, and only there: a carriage return stays in its line. A text
with `n` line feeds has `n + 1` lines, the last one possibly empty.
-/

namespace AsmLexer.Text

/-- Put a character in front of the first line, or open a new line in front of it. -/
def pushFront (c : Char) (lines : List (List Char)) : List (List Char) :=
  if c = '\n' then [] :: lines
  else
    match lines with
    | [] => [[c]]
    | line :: rest => (c :: line) :: rest

/-- The lines of a text, without their line feeds. -/
def lines (text : List Char) : List (List Char) :=
  text.foldr pushFront [[]]

@[simp] theorem lines_nil : lines [] = [[]] := rfl

@[simp] theorem lines_cons (c : Char) (text : List Char) :
    lines (c :: text) = pushFront c (lines text) := rfl

theorem lines_ne_nil (text : List Char) : lines text ≠ [] := by
  cases text with
  | nil => simp
  | cons c text =>
      simp only [lines_cons, pushFront]
      split
      · simp
      · split <;> simp

theorem length_lines (text : List Char) : (lines text).length = text.count '\n' + 1 := by
  induction text with
  | nil => rfl
  | cons c text ih =>
      by_cases hc : c = '\n'
      · simp [pushFront, hc, ih]
      · cases hl : lines text with
        | nil => exact absurd hl (lines_ne_nil text)
        | cons line rest =>
            have hcount : (c :: text).count '\n' = text.count '\n' :=
              List.count_cons_of_ne hc
            rw [hl] at ih
            simp [pushFront, hc, hl, hcount, ← ih]

end AsmLexer.Text
