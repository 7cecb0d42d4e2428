import AsmLexer.Number.Binary64

/-!
# The text of a number

A number is written with the fewest decimal digits that read back as it, nearest first. The layout
of those digits is one record: `Layout.plain` has the point among the digits for values from a
millionth up to below 10²¹ and an exponent outside. An integer that double precision holds with all
its neighbours is simply written out.
-/

namespace AsmLexer.Number

/-- The positive decimal `digits · 10 ^ exponent`. -/
structure Decimal where
  digits : Nat
  exponent : Int
deriving DecidableEq

namespace Decimal

/-- The decimal as a numerator and a denominator. -/
def ratio (d : Decimal) : Nat × Nat :=
  match d.exponent with
  | .ofNat e => (d.digits * Nat.pow 10 e, 1)
  | .negSucc e => (d.digits, Nat.pow 10 (e + 1))

/-- Whether the decimal rounds to the number `num / den`. -/
def readsAs (d : Decimal) (num den : Nat) : Bool :=
  let (n, m) := Binary64.roundRatio d.ratio.1 d.ratio.2
  n * den == num * m

/-- How many digits the natural number `n` has; zero has none. -/
def digitCount (n : Nat) : Nat :=
  if n = 0 then 0 else (Nat.toDigits 10 n).length

/-- The number of places before the point of `num / den`: the `k` with
`10 ^ (k - 1) ≤ num / den < 10 ^ k`. -/
def places (num den : Nat) : Int :=
  if den ≤ num then digitCount (num / den)
  else 1 - digitCount ((den - 1) / num)

/-- The decimal below `num / den` among those whose last place is `10 ^ exponent`, and by how much
of that place it falls short, as a numerator and a denominator. -/
def below (num den : Nat) (exponent : Int) : Decimal × Nat × Nat :=
  match exponent with
  | .ofNat e =>
      let unit := den * Nat.pow 10 e
      (⟨num / unit, exponent⟩, num % unit, unit)
  | .negSucc e =>
      let scaled := num * Nat.pow 10 (e + 1)
      (⟨scaled / den, exponent⟩, scaled % den, den)

/-- The decimal of `count` digits that reads back as `num / den`, the nearer one if both
neighbours do. -/
def ofDigitCount? (num den count : Nat) : Option Decimal :=
  let (low, rest, unit) := below num den (places num den - count)
  let high := { low with digits := low.digits + 1 }
  match low.readsAs num den, high.readsAs num den with
  | true, true =>
      if 2 * rest < unit || (2 * rest == unit && low.digits % 2 == 0) then some low else some high
  | true, false => some low
  | false, true => some high
  | false, false => none

/-- The decimal with the fewest digits that reads back; seventeen are always enough. -/
def shortest (num den : Nat) : Decimal :=
  let counts := (List.range 17).map (· + 1)
  (counts.findSome? (ofDigitCount? num den)).getD (below num den (places num den - 17)).1

end Decimal

/-- Where the digits of a number are written without an exponent: when the point falls at most
`maxWhole` places after the first digit, or fewer than `maxZeros` places before it. -/
structure Layout where
  maxWhole : Nat
  maxZeros : Nat

/-- Positional from `0.000001` up to below `1e+21`. -/
def Layout.plain : Layout := ⟨21, 6⟩

namespace Layout

/-- The digits with the point after `point` of them, or with an exponent. -/
def write (layout : Layout) (digits : List Char) (point : Int) : List Char :=
  if digits.length ≤ point ∧ point ≤ layout.maxWhole then
    digits ++ List.replicate (point.toNat - digits.length) '0'
  else if 0 < point ∧ point ≤ layout.maxWhole then
    digits.take point.toNat ++ '.' :: digits.drop point.toNat
  else if -layout.maxZeros < point ∧ point ≤ 0 then
    '0' :: '.' :: (List.replicate (-point).toNat '0' ++ digits)
  else
    let power := point - 1
    let fraction := if digits.length = 1 then [] else '.' :: digits.drop 1
    let sign := if power < 0 then '-' else '+'
    digits.take 1 ++ fraction ++ 'e' :: sign :: Nat.toDigits 10 power.natAbs

end Layout

/-- Digits without the zeros at their end. -/
def dropFinalZeros (digits : List Char) : List Char :=
  (digits.reverse.dropWhile (· == '0')).reverse

/-- The shortest text of a number of double precision that is not zero. -/
def shortestText (q : Rat) : String :=
  let decimal := Decimal.shortest q.num.natAbs q.den
  let digits := Nat.toDigits 10 decimal.digits
  let body := Layout.plain.write (dropFinalZeros digits) (digits.length + decimal.exponent)
  String.ofList (if q.num < 0 then '-' :: body else body)

/-- The text of the nearest number of double precision. -/
def text (q : Rat) : String :=
  if q.den = 1 ∧ q.num.natAbs ≤ Binary64.exactBound then toString q.num
  else
    let nearest := Binary64.round q
    if nearest.num = 0 then "0" else shortestText nearest

theorem text_intCast {n : Int} (h : n.natAbs ≤ Binary64.exactBound) :
    text (n : Rat) = toString n :=
  if_pos ⟨rfl, h⟩

end AsmLexer.Number
