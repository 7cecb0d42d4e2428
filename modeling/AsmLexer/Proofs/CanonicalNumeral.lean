import AsmLexer.Proofs.Numeral
import Mathlib.Data.List.Basic

/-!
# Canonical numerals

A decimal numeral is canonical if no zero stands in front of its digits, and a sign only where the
number is not zero. Every integer has exactly one, and this is the one that it is shown with.
-/

namespace AsmLexer

open Text Grammar

namespace Text

/-- Decimal digits with no zero in front. -/
structure IsPlain (digits : List Char) : Prop where
  all : ∀ c ∈ digits, c.isDigit = true
  ne_nil : digits ≠ []
  zero : digits.head? = some '0' → digits = ['0']

theorem digitValue_of_isDigit {c : Char} (h : c.isDigit = true) : digitValue c = c.toNat - 48 := by
  rw [digitValue, if_pos h]
  rfl

theorem digitValue_lt_ten {c : Char} (h : c.isDigit = true) : digitValue c < 10 := by
  have hlast := (toNat_le_of_isDigit h).2
  rw [digitValue_of_isDigit h]
  omega

theorem digitChar_digitValue {c : Char} (h : c.isDigit = true) :
    Nat.digitChar (digitValue c) = c := by
  have hfirst := (toNat_le_of_isDigit h).1
  apply Char.toNat_inj.mp
  rw [Nat.toNat_digitChar_of_lt_ten (digitValue_lt_ten h), digitValue_of_isDigit h]
  omega

theorem toDigits_append_singleton {value : Nat} (hvalue : 0 < value) {c : Char}
    (hc : c.isDigit = true) :
    Nat.toDigits 10 value ++ [c] = Nat.toDigits 10 (value * 10 + digitValue c) := by
  have hlt := digitValue_lt_ten hc
  have happend := @Nat.toDigits_append_toDigits 10 value (digitValue c) (by decide) hvalue hlt
  rwa [Nat.toDigits_of_lt_base hlt, digitChar_digitValue hc, Nat.mul_comm] at happend

/-- Digits behind a numeral make it longer. -/
theorem toDigits_append {value : Nat} (hvalue : 0 < value) {digits : List Char}
    (hdigits : ∀ c ∈ digits, c.isDigit = true) :
    Nat.toDigits 10 value ++ digits = Nat.toDigits 10 (valueAfter 10 value digits) := by
  induction digits generalizing value with
  | nil => rw [List.append_nil, valueAfter_nil]
  | cons c digits ih =>
      obtain ⟨hc, htail⟩ := List.forall_mem_cons.mp hdigits
      have hnext : 0 < value * 10 + digitValue c := by omega
      rw [valueAfter_cons, ← ih hnext htail, ← toDigits_append_singleton hvalue hc,
        List.append_assoc, List.singleton_append]

/-- A number has no other digits with no zero in front. -/
theorem IsPlain.eq_toDigits {digits : List Char} (h : IsPlain digits) :
    digits = Nat.toDigits 10 (digitsValue 10 digits) := by
  obtain ⟨c, tail, rfl⟩ := List.exists_cons_of_ne_nil h.ne_nil
  by_cases hzero : c = '0'
  · subst hzero
    rw [h.zero rfl]
    rfl
  · obtain ⟨hc, htail⟩ := List.forall_mem_cons.mp h.all
    have hdigit := digitChar_digitValue hc
    have hpos : 0 < digitValue c := by
      apply Nat.pos_of_ne_zero
      intro hnone
      rw [hnone] at hdigit
      exact hzero hdigit.symm
    have happend := toDigits_append hpos htail
    rw [Nat.toDigits_of_lt_base (digitValue_lt_ten hc), hdigit, List.singleton_append] at happend
    rw [digitsValue, valueAfter_cons, Nat.zero_mul, Nat.zero_add, ← happend]

theorem isPlain_toDigits (n : Nat) : IsPlain (Nat.toDigits 10 n) := by
  refine ⟨fun c hc ↦ Nat.isDigit_of_mem_toDigits (by decide) (by decide) hc,
    Nat.toDigits_ne_nil, ?_⟩
  induction n using Nat.strongRecOn with
  | ind n ih =>
      by_cases hn : n < 10
      · rw [Nat.toDigits_of_lt_base hn]
        intro hc
        rw [Option.some.inj hc]
      · rw [Nat.toDigits_of_base_le (by decide) (Nat.not_lt.mp hn),
          List.head?_append_of_ne_nil _ Nat.toDigits_ne_nil]
        intro hzero
        -- Only zero itself is written with a zero in front, and the quotient is not zero.
        have hfront := ih (n / 10) (Nat.div_lt_self (by omega) (by decide)) hzero
        have hvalue := digitsValue_toDigits (by decide : 1 < 10) (by decide) (n / 10)
        rw [hfront] at hvalue
        have hquotient : n / 10 = 0 := hvalue.symm
        omega

end Text

namespace Grammar

/-- The canonical decimal numeral of an integer. -/
inductive Canonical : List Char → Int → Prop
  | intro {digits : List Char} (negative : Bool) (hdigits : IsPlain digits)
      (hsign : negative = true → digitsValue 10 digits ≠ 0) :
      Canonical (sign negative ++ digits) (signedValue negative (digitsValue 10 digits))

theorem decide_signedValue_lt {negative : Bool} {magnitude : Nat}
    (h : negative = true → magnitude ≠ 0) :
    decide (signedValue negative magnitude < 0) = negative := by
  cases negative with
  | true =>
      have hne := h rfl
      simp only [signedValue, if_true, decide_eq_true_eq]
      omega
  | false => simp [signedValue]

theorem canonical_iff {chars : List Char} {v : Int} :
    Canonical chars v ↔ chars = (toString v).toList := by
  constructor
  · rintro @⟨digits, negative, hdigits, hsign⟩
    rw [toList_toString_int, decide_signedValue_lt hsign, natAbs_signedValue, toList_toString,
      ← hdigits.eq_toDigits]
  · rintro rfl
    have hmagnitude : digitsValue 10 (toString v.natAbs).toList = v.natAbs :=
      digitsValue_toString _
    have hplain : IsPlain (toString v.natAbs).toList := by
      rw [toList_toString]
      exact isPlain_toDigits _
    have hcanonical := Canonical.intro (decide (v < 0)) hplain (by
      rw [hmagnitude, decide_eq_true_eq]
      omega)
    rwa [hmagnitude, signedValue_natAbs, ← toList_toString_int] at hcanonical

end Grammar

end AsmLexer
