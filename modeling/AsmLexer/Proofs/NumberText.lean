import AsmLexer.Proofs.CanonicalNumeral
import AsmLexer.Proofs.Payload
import Mathlib.Data.List.TakeWhile
import Mathlib.Data.Nat.Digits.Defs

/-!
# The text of a number

Whatever number is written, its text is a numeral: it is not empty, and it has nothing in it but
digits, signs, a point and the mark of an exponent. That there is a digit to write rests on the
first place of a number being where `Decimal.places` says it is.
-/

namespace AsmLexer.Number

open Text Grammar

def isNumeralChar (c : Char) : Bool :=
  c.isDigit || c == '-' || c == '+' || c == '.' || c == 'e' || c == 'E'

/-! ## The shortest digits -/

namespace Decimal

variable {num den count : Nat} {d : Decimal}

theorem lt_pow_digitCount (n : Nat) : n < 10 ^ digitCount n := by
  rw [digitCount]
  split
  · omega
  · have hvalue := digitsValue_toDigits (by decide : 1 < 10) (by decide) n
    have hlt := @valueAfter_lt 10 0 (Nat.toDigits 10 n) fun c hc ↦
      digitValue_lt_ten (Nat.isDigit_of_mem_toDigits (by decide) (by decide) hc)
    rw [digitsValue] at hvalue
    rwa [hvalue, Nat.zero_add, Nat.one_mul] at hlt

theorem digitCount_pos {n : Nat} (hn : 0 < n) : 0 < digitCount n := by
  rw [digitCount, if_neg (Nat.ne_of_gt hn)]
  exact List.length_pos_of_ne_nil Nat.toDigits_ne_nil

theorem pow_digitCount_le {n : Nat} (hn : 0 < n) : 10 ^ (digitCount n - 1) ≤ n := by
  have hpos := digitCount_pos hn
  rw [digitCount, if_neg (Nat.ne_of_gt hn)] at hpos ⊢
  apply Nat.not_lt.mp
  intro hlt
  by_cases hone : (Nat.toDigits 10 n).length - 1 = 0
  · rw [hone] at hlt
    omega
  · have hshort := Nat.toDigits_length 10 n _ (Nat.pos_of_ne_zero hone) hlt
    omega

theorem below_pos (hnum : 0 < num) (hden : 0 < den) (hcount : 0 < count) :
    0 < (below num den (places num den - count)).1.digits := by
  by_cases hle : den ≤ num
  · have hquotient : 0 < num / den := Nat.div_pos hle hden
    have hpow := pow_digitCount_le hquotient
    rw [places, if_pos hle]
    cases hexponent : (digitCount (num / den) : Int) - count with
    | ofNat e =>
        rw [Int.ofNat_eq_natCast] at hexponent
        have he : 10 ^ e ≤ num / den :=
          Nat.le_trans (Nat.pow_le_pow_right (by decide) (by omega)) hpow
        have hunit : den * 10 ^ e ≤ num := by
          rw [Nat.mul_comm]
          exact (Nat.le_div_iff_mul_le hden).mp he
        exact Nat.div_pos hunit (Nat.mul_pos hden (Nat.pow_pos (by decide)))
    | negSucc e =>
        have hscaled : num ≤ num * 10 ^ (e + 1) :=
          Nat.le_mul_of_pos_right _ (Nat.pow_pos (by decide))
        exact Nat.div_pos (Nat.le_trans hle hscaled) hden
  · rw [places, if_neg hle]
    have hpos : 0 < (den - 1) / num := Nat.div_pos (by omega) hnum
    have hdigits := digitCount_pos hpos
    cases hexponent : (1 : Int) - digitCount ((den - 1) / num) - count with
    | ofNat e =>
        rw [Int.ofNat_eq_natCast] at hexponent
        omega
    | negSucc e =>
        have hpow : 10 ^ digitCount ((den - 1) / num) ≤ 10 ^ (e + 1) :=
          Nat.pow_le_pow_right (by decide) (by omega)
        have hlt := (Nat.div_lt_iff_lt_mul hnum).mp (lt_pow_digitCount ((den - 1) / num))
        have hscaled := Nat.mul_le_mul_left num hpow
        rw [Nat.mul_comm] at hlt
        have hle' : den ≤ num * 10 ^ (e + 1) := by omega
        exact Nat.div_pos hle' hden

theorem ofDigitCount?_pos (hnum : 0 < num) (hden : 0 < den) (hcount : 0 < count)
    (h : ofDigitCount? num den count = some d) : 0 < d.digits := by
  have hlow := below_pos hnum hden hcount
  unfold ofDigitCount? at h
  dsimp only at h
  split at h
  · split at h
    · obtain rfl := Option.some.inj h
      exact hlow
    · obtain rfl := Option.some.inj h
      exact Nat.succ_pos _
  · obtain rfl := Option.some.inj h
    exact hlow
  · obtain rfl := Option.some.inj h
    exact Nat.succ_pos _
  · cases h

theorem shortest_pos (hnum : 0 < num) (hden : 0 < den) : 0 < (shortest num den).digits := by
  rw [shortest]
  cases hfound : ((List.range 17).map (· + 1)).findSome? (ofDigitCount? num den) with
  | none => exact below_pos hnum hden (by decide)
  | some d =>
      obtain ⟨count, hmem, hcount⟩ := List.exists_of_findSome?_eq_some hfound
      obtain ⟨k, -, rfl⟩ := List.mem_map.mp hmem
      exact ofDigitCount?_pos hnum hden (Nat.succ_pos k) hcount

end Decimal

/-! ## Digits written out -/

/-- A numeral that has a character. -/
structure IsNumeral (chars : List Char) : Prop where
  all : ∀ c ∈ chars, isNumeralChar c = true
  ne_nil : chars ≠ []

theorem isNumeralChar_of_isDigit {c : Char} (h : c.isDigit = true) : isNumeralChar c = true := by
  simp [isNumeralChar, h]

theorem isNumeral_toDigits (n : Nat) : IsNumeral (Nat.toDigits 10 n) :=
  ⟨fun _ hc ↦ isNumeralChar_of_isDigit (Nat.isDigit_of_mem_toDigits (by decide) (by decide) hc),
    Nat.toDigits_ne_nil⟩

theorem IsNumeral.write {digits : List Char} (h : IsNumeral digits) (layout : Layout)
    (point : Int) : IsNumeral (layout.write digits point) := by
  obtain ⟨hall, hne⟩ := h
  have htake (n : Nat) : ∀ c ∈ digits.take n, isNumeralChar c = true :=
    fun c hc ↦ hall c (List.mem_of_mem_take hc)
  have hdrop (n : Nat) : ∀ c ∈ digits.drop n, isNumeralChar c = true :=
    fun c hc ↦ hall c (List.mem_of_mem_drop hc)
  have hzero : isNumeralChar '0' = true := by decide
  have hzeros (n : Nat) : ∀ c ∈ List.replicate n '0', isNumeralChar c = true := by
    intro c hc
    rw [List.eq_of_mem_replicate hc]
    exact hzero
  have hpoint : isNumeralChar '.' = true := by decide
  unfold Layout.write
  split
  · exact ⟨List.forall_mem_append.mpr ⟨hall, hzeros _⟩, List.append_ne_nil_of_left_ne_nil hne _⟩
  · split
    · refine ⟨List.forall_mem_append.mpr ⟨htake _, List.forall_mem_cons.mpr ⟨hpoint, hdrop _⟩⟩, ?_⟩
      exact List.append_ne_nil_of_right_ne_nil _ (List.cons_ne_nil _ _)
    · split
      · refine ⟨List.forall_mem_cons.mpr ⟨hzero, List.forall_mem_cons.mpr ⟨hpoint, ?_⟩⟩,
          List.cons_ne_nil _ _⟩
        exact List.forall_mem_append.mpr ⟨hzeros _, hall⟩
      · have hpower := (isNumeral_toDigits (point - 1).natAbs).all
        have hmark : isNumeralChar 'e' = true := by decide
        have hsign : isNumeralChar (if point - 1 < 0 then '-' else '+') = true := by
          split <;> decide
        have hfraction : ∀ c ∈ if digits.length = 1 then [] else '.' :: digits.drop 1,
            isNumeralChar c = true := by
          split
          · nofun
          · exact List.forall_mem_cons.mpr ⟨hpoint, hdrop 1⟩
        refine ⟨?_, List.append_ne_nil_of_right_ne_nil _ (List.cons_ne_nil _ _)⟩
        refine List.forall_mem_append.mpr ⟨List.forall_mem_append.mpr ⟨htake 1, hfraction⟩, ?_⟩
        exact List.forall_mem_cons.mpr ⟨hmark, List.forall_mem_cons.mpr ⟨hsign, hpower⟩⟩

/-- A positive number has a digit that is no zero. -/
theorem isNumeral_dropFinalZeros {n : Nat} (hn : 0 < n) :
    IsNumeral (dropFinalZeros (Nat.toDigits 10 n)) := by
  constructor
  · intro c hc
    have hmem := (List.dropWhile_sublist _).mem (List.mem_reverse.mp hc)
    exact (isNumeral_toDigits n).all c (List.mem_reverse.mp hmem)
  · intro hnil
    have hzeros := List.dropWhile_eq_nil_iff.mp (List.reverse_eq_nil_iff.mp hnil)
    obtain ⟨c, rest, hdigits⟩ := List.exists_cons_of_ne_nil (@Nat.toDigits_ne_nil n 10)
    have hfirst : c = '0' := by
      simpa using hzeros c (List.mem_reverse.mpr (hdigits ▸ List.mem_cons_self))
    have hvalue := digitsValue_toDigits (by decide : 1 < 10) (by decide) n
    rw [(isPlain_toDigits n).zero (by rw [hdigits, hfirst, List.head?_cons])] at hvalue
    have hnone : n = 0 := hvalue.symm
    omega

theorem isNumeral_shortestText {q : Rat} (hq : q.num ≠ 0) :
    IsNumeral (shortestText q).toList := by
  have hdigits := isNumeral_dropFinalZeros
    (Decimal.shortest_pos (Int.natAbs_pos.mpr hq) q.den_pos)
  have hbody (point : Int) := hdigits.write Layout.plain point
  rw [shortestText, String.toList_ofList]
  split
  · exact ⟨List.forall_mem_cons.mpr ⟨by decide, (hbody _).all⟩, List.cons_ne_nil _ _⟩
  · exact hbody _

theorem isNumeral_text (q : Rat) : IsNumeral (text q).toList := by
  unfold text
  split
  · constructor
    · intro c hc
      rcases eq_minus_or_isDigit hc with rfl | hdigit
      · decide
      · exact isNumeralChar_of_isDigit hdigit
    · rw [toList_toString_int, toList_toString]
      exact List.append_ne_nil_of_right_ne_nil _ Nat.toDigits_ne_nil
  · dsimp only
    split
    · exact ⟨List.all_eq_true.mp (by decide), by decide⟩
    · exact isNumeral_shortestText ‹_›

end AsmLexer.Number
