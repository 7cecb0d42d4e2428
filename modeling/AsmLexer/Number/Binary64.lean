/-!
# Numbers of double precision

Numbers that come from outside are kept as exact rationals that a binary64 word can hold. `round`
takes any rational to the nearest such number; nothing here goes through machine arithmetic. The
texts of the program show numbers only through `Number.text`, which asks of a decimal nothing but
that it rounds back.
-/

namespace AsmLexer.Number

/-- The natural number that `q` is. -/
def natural? (q : Rat) : Option Nat :=
  if q.den = 1 then
    match q.num with
    | .ofNat n => some n
    | .negSucc _ => none
  else none

/-- The whole part of `q`; a fraction is dropped toward zero. -/
def truncate (q : Rat) : Int :=
  q.num.tdiv q.den

theorem natural?_eq_some_iff {q : Rat} {n : Nat} :
    natural? q = some n ↔ q.den = 1 ∧ q.num = n := by
  unfold natural?
  by_cases hden : q.den = 1
  · rw [if_pos hden]
    cases q.num with
    | ofNat k =>
        exact ⟨fun h ↦ ⟨hden, congrArg Int.ofNat (Option.some.inj h)⟩,
          fun h ↦ congrArg some (Int.ofNat.inj h.2)⟩
    | negSucc k =>
        constructor
        · intro h
          cases h
        · rintro ⟨-, h⟩
          cases h
  · simp [hden]

/-- The quotient of two naturals to the nearest natural, a half going to the even neighbour. -/
def roundDiv (num den : Nat) : Nat :=
  let low := num / den
  let doubled := 2 * (num % den)
  if doubled < den then low
  else if den < doubled then low + 1
  else if low % 2 = 0 then low
  else low + 1

namespace Binary64

/-- The exponent of the last place of the numbers next to `num / den`: the quotient has 53 binary
places before it, unless it is so small that only the least exponent is left. -/
def lastPlace (num den : Nat) : Int :=
  let estimate : Int := num.log2 - den.log2
  let reached :=
    if estimate < 0 then den ≤ num <<< (-estimate).toNat
    else den <<< estimate.toNat ≤ num
  let leading := if reached then estimate else estimate - 1
  max (leading - 52) (-1074)

/-- The nearest number to `num / den`, as a numerator and a denominator. -/
def roundRatio (num den : Nat) : Nat × Nat :=
  match lastPlace num den with
  | .ofNat place => (roundDiv num (den <<< place) <<< place, 1)
  | .negSucc place => (roundDiv (num <<< (place + 1)) den, 1 <<< (place + 1))

/-- The nearest number of double precision to a rational. -/
def round (q : Rat) : Rat :=
  match roundRatio q.num.natAbs q.den with
  | (num, den) => mkRat (if q.num < 0 then -num else num) den

/-- Up to this bound, and not beyond, every integer is a number of double precision. -/
def exactBound : Nat := 9007199254740992

/-- The nearest number of double precision to an integer; it is an integer as well. -/
def nearestInt (n : Int) : Int :=
  if n.natAbs ≤ exactBound then n else (round n).num

theorem nearestInt_of_le {n : Int} (h : n.natAbs ≤ exactBound) : nearestInt n = n :=
  if_pos h

end Binary64

end AsmLexer.Number
