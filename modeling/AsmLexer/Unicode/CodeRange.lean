/-!
# Sets of code points given by ranges

A character class is stored as its inclusive ranges of code points, in ascending order and apart
from one another. The order lets a search stop at the first range that lies beyond the code point.
-/

namespace AsmLexer

/-- An inclusive range of code points, first and last. -/
abbrev CodeRange := Nat × Nat

namespace CodeRange

/-- Whether a code point lies in one of the ascending `ranges`. -/
def covers : (ranges : List CodeRange) → (code : Nat) → Bool
  | [], _ => false
  | (first, last) :: rest, code =>
      if code < first then false
      else if code ≤ last then true
      else covers rest code

@[simp] theorem covers_nil (code : Nat) : covers [] code = false := rfl

theorem covers_cons_of_lt {first last code : Nat} (rest : List CodeRange) (h : code < first) :
    covers ((first, last) :: rest) code = false := by
  simp [covers, h]

theorem covers_cons_of_gt {first last code : Nat} (rest : List CodeRange) (hfirst : first ≤ code)
    (hlast : last < code) : covers ((first, last) :: rest) code = covers rest code := by
  have h₁ : ¬code < first := by omega
  have h₂ : ¬code ≤ last := by omega
  simp [covers, h₁, h₂]

theorem covers_cons_of_mem {first last code : Nat} (rest : List CodeRange) (hfirst : first ≤ code)
    (hlast : code ≤ last) : covers ((first, last) :: rest) code = true := by
  have h : ¬code < first := by omega
  simp [covers, h, hlast]

/-- A code point that is covered lies between the ends of one of the ranges. -/
theorem exists_of_covers {ranges : List CodeRange} {code : Nat} (h : covers ranges code = true) :
    ∃ r ∈ ranges, r.1 ≤ code ∧ code ≤ r.2 := by
  induction ranges with
  | nil => simp at h
  | cons r rest ih =>
      obtain ⟨first, last⟩ := r
      by_cases hfirst : code < first
      · simp [covers, hfirst] at h
      · by_cases hlast : code ≤ last
        · exact ⟨(first, last), by simp, by simpa using hfirst, hlast⟩
        · simp only [covers, hfirst, hlast, if_false] at h
          obtain ⟨s, hs, hle⟩ := ih h
          exact ⟨s, List.mem_cons_of_mem _ hs, hle⟩

end CodeRange

end AsmLexer
