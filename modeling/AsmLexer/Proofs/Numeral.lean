import AsmLexer.Proofs.Grammar

/-!
# Numerals

A number that is spelled in digits is read back from them, in every base up to sixteen. The decimal
numeral of an integer is a sign and the numeral of its magnitude, as a signed literal has them.
-/

namespace AsmLexer

open Text Grammar

namespace Text

theorem digitValue_digitChar : ∀ d < 16, digitValue (Nat.digitChar d) = d := by
  decide

theorem digitsValue_toDigits {base : Nat} (hbase : 1 < base) (hle : base ≤ 16) (n : Nat) :
    digitsValue base (Nat.toDigits base n) = n := by
  -- All the digits but the last spell the quotient by the base.
  induction n using Nat.strongRecOn with
  | ind n ih =>
      by_cases hn : n < base
      · rw [Nat.toDigits_of_lt_base hn, digitsValue, valueAfter_cons, valueAfter_nil,
          digitValue_digitChar n (by omega), Nat.zero_mul, Nat.zero_add]
      · have hquotient := ih (n / base) (Nat.div_lt_self (by omega) hbase)
        have hlt : n % base < base := Nat.mod_lt n (by omega)
        have hdigit := digitValue_digitChar (n % base) (by omega)
        rw [Nat.toDigits_of_base_le hbase (Nat.not_lt.mp hn), digitsValue, valueAfter_append,
          ← digitsValue, hquotient, valueAfter_cons, valueAfter_nil, hdigit]
        exact Nat.div_add_mod' n base

theorem toList_toString (n : Nat) : (toString n).toList = Nat.toDigits 10 n := by
  rw [Nat.toString_eq_repr, Nat.toList_repr]

theorem digitsValue_toString (n : Nat) : digitsValue 10 (toString n).toList = n := by
  rw [toList_toString, digitsValue_toDigits (by decide) (by decide)]

end Text

theorem Literal.decimal_toString {limit n : Nat} {rest : List Char} (hle : n ≤ limit)
    (hrest : NoneAhead Char.isDigit rest) : Decimal limit (toString n).toList rest := by
  refine ⟨⟨?_, hrest⟩, ?_, ?_⟩
  · intro c hc
    rw [toList_toString] at hc
    exact Nat.isDigit_of_mem_toDigits (by decide) (by decide) hc
  · rw [toList_toString]
    exact Nat.toDigits_ne_nil
  · rw [digitsValue_toString]
    exact hle

namespace Grammar

theorem toList_toString_int (v : Int) :
    (toString v).toList = sign (decide (v < 0)) ++ (toString v.natAbs).toList := by
  rw [Int.toString_eq_repr, Int.repr_eq_if, Nat.toString_eq_repr]
  by_cases hneg : v < 0
  · have hmagnitude : (-v).toNat = v.natAbs := by omega
    rw [if_neg (Int.not_le.mpr hneg), hmagnitude, String.toList_append]
    simp [sign, hneg]
  · have hmagnitude : v.toNat = v.natAbs := by omega
    rw [if_pos (Int.not_lt.mp hneg), hmagnitude]
    simp [sign, hneg]

/-- Nothing but a sign and digits is in a decimal numeral. -/
theorem eq_minus_or_isDigit {v : Int} {c : Char} (h : c ∈ (toString v).toList) :
    c = '-' ∨ c.isDigit = true := by
  rw [toList_toString_int, toList_toString] at h
  rcases List.mem_append.mp h with hsign | hdigit
  · refine .inl ?_
    rw [sign] at hsign
    split at hsign
    · exact List.mem_singleton.mp hsign
    · cases hsign
  · exact .inr (Nat.isDigit_of_mem_toDigits (by decide) (by decide) hdigit)

theorem notMem_toString_int {c : Char} (hminus : c ≠ '-') (hdigit : c.isDigit = false) (v : Int) :
    c ∉ (toString v).toList := by
  intro hmem
  rcases eq_minus_or_isDigit hmem with h | h
  · exact hminus h
  · rw [hdigit] at h
    cases h

theorem minus_mem_toString_iff {v : Int} : '-' ∈ (toString v).toList ↔ v < 0 := by
  have hdigits : '-' ∉ (toString v.natAbs).toList := by
    rw [toList_toString]
    intro hmem
    have hdigit : '-'.isDigit = true := Nat.isDigit_of_mem_toDigits (by decide) (by decide) hmem
    cases hdigit
  rw [toList_toString_int, List.mem_append, or_iff_left hdigits]
  by_cases hneg : v < 0 <;> simp [sign, hneg]

theorem toString_int_injective {v w : Int} (h : toString v = toString w) : v = w := by
  have hsign : v < 0 ↔ w < 0 := by
    rw [← minus_mem_toString_iff, h, minus_mem_toString_iff]
  have htext := congrArg String.toList h
  rw [toList_toString_int, toList_toString_int, decide_eq_decide.mpr hsign] at htext
  have hmagnitude := congrArg (digitsValue 10) (List.append_cancel_left htext)
  rw [digitsValue_toString, digitsValue_toString] at hmagnitude
  omega

theorem signedValue_natAbs (v : Int) : signedValue (decide (v < 0)) v.natAbs = v := by
  by_cases hneg : v < 0
  · simp only [signedValue, hneg, decide_true, if_true]
    omega
  · simp only [signedValue, hneg, decide_false, Bool.false_eq_true, if_false]
    omega

theorem natAbs_signedValue (negative : Bool) (magnitude : Nat) :
    (signedValue negative magnitude).natAbs = magnitude := by
  cases negative with
  | true => exact Int.natAbs_neg _
  | false => rfl

end Grammar

end AsmLexer
