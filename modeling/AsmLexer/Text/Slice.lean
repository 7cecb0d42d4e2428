/-!
# Slices of a list

A slice is given by two indices that may lie outside the list: a negative index counts from the
end, and an index beyond either end means that end. Nothing is left when the first index does not
come before the second.
-/

namespace AsmLexer.Text

/-- The place that an index means in a list of `length` elements. -/
def clampIndex (length : Nat) (index : Int) : Nat :=
  if index < 0 then (length + index).toNat else min index.toNat length

/-- The elements from `start` up to before `stop`. -/
def slice {α : Type} (xs : List α) (start stop : Int) : List α :=
  (xs.take (clampIndex xs.length stop)).drop (clampIndex xs.length start)

theorem clampIndex_le (length : Nat) (index : Int) : clampIndex length index ≤ length := by
  unfold clampIndex
  split <;> omega

@[simp] theorem clampIndex_natCast {length index : Nat} (h : index ≤ length) :
    clampIndex length index = index := by
  unfold clampIndex
  split <;> omega

/-- Between two indices inside the list, a slice takes as many elements as lie between them. -/
theorem slice_natCast {α : Type} (xs : List α) {start stop : Nat} (hstart : start ≤ stop)
    (hstop : stop ≤ xs.length) : slice xs start stop = (xs.drop start).take (stop - start) := by
  rw [slice, clampIndex_natCast hstop, clampIndex_natCast (Nat.le_trans hstart hstop),
    List.drop_take]

end AsmLexer.Text
