import AsmLexer.Handle

/-!
# Positions and ranges

All coordinates count characters from zero. A position may also be made by hand, so its
coordinates are integers and need not agree with any text.
-/

namespace AsmLexer

/-- A place in a text: characters before it, line feeds before it, characters before it in its
line. -/
structure Position where
  offset : Int
  row : Int
  column : Int
deriving DecidableEq

namespace Position

def origin : Position := ⟨0, 0, 0⟩

/-- The position `count` characters further on in the same line. -/
def right (p : Position) (count : Nat) : Position :=
  ⟨p.offset + count, p.row, p.column + count⟩

/-- The position after the line feed at `p`. -/
def nextLine (p : Position) : Position :=
  ⟨p.offset + 1, p.row + 1, 0⟩

/-- Row and column as they are shown, counted from one. -/
def display (p : Position) : String :=
  toString (p.row + 1) ++ ":" ++ toString (p.column + 1)

/-- Row and column as they are shown where counting is done in double precision. -/
def displayNearest (p : Position) : String :=
  Number.text ↑(p.row + 1) ++ ":" ++ Number.text ↑(p.column + 1)

/-- Within the range of exact integers it makes no difference how the counting is done. -/
theorem displayNearest_eq_display {p : Position}
    (hrow : (p.row + 1).natAbs ≤ Number.Binary64.exactBound)
    (hcolumn : (p.column + 1).natAbs ≤ Number.Binary64.exactBound) :
    p.displayNearest = p.display := by
  rw [displayNearest, display, Number.text_intCast hrow, Number.text_intCast hcolumn]

@[simp] theorem right_zero (p : Position) : p.right 0 = p := by
  simp [right]

theorem right_right (p : Position) (m n : Nat) : (p.right m).right n = p.right (m + n) := by
  simp [right, Int.add_assoc]

end Position

/-- A piece of a file, from `start` up to before `stop`. -/
structure Range where
  start : Position
  stop : Position
  file : Handle
deriving DecidableEq

namespace Range

def length (r : Range) : Int :=
  r.stop.offset - r.start.offset

/-- Both ends are in one row, as far apart in columns as in offsets. Distances are compared in
double precision. -/
def IsSingleLine (r : Range) : Prop :=
  r.start.row = r.stop.row ∧
    Number.Binary64.nearestInt (r.stop.column - r.start.column) =
      Number.Binary64.nearestInt r.length

instance (r : Range) : Decidable r.IsSingleLine :=
  inferInstanceAs (Decidable (_ ∧ _))

theorem isSingleLine_of_eq {r : Range} (hrow : r.start.row = r.stop.row)
    (hcolumn : r.stop.column - r.start.column = r.length) : r.IsSingleLine :=
  ⟨hrow, congrArg _ hcolumn⟩

end Range

end AsmLexer
