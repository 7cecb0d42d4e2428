import AsmLexer.Lexer.Literal
import AsmLexer.Proofs.MaximalRun

/-!
# Bounded decimal numbers

A decimal number is read digit by digit and given up at the digit that takes it past the limit. In
front of any text there is one of three things: no digit at all, a number within the limit with all
its digits, or the shortest run of digits that is beyond the limit.
-/

namespace AsmLexer.Literal

open Text

structure Decimal (limit : Nat) (digits rest : List Char) : Prop where
  run : MaximalRun Char.isDigit digits rest
  ne_nil : digits ≠ []
  le : digitsValue 10 digits ≤ limit

/-- The last digit takes the value past the limit. -/
structure Overflow (limit : Nat) (digits : List Char) : Prop where
  all : ∀ c ∈ digits, c.isDigit = true
  lt : limit < digitsValue 10 digits
  le : digitsValue 10 digits.dropLast ≤ limit

theorem Overflow.ne_nil {limit : Nat} {digits : List Char} (h : Overflow limit digits) :
    digits ≠ [] := by
  rintro rfl
  exact absurd h.lt (Nat.not_lt_zero limit)

variable {limit : Nat}

/-! ## Reading on from a value -/

theorem readDigits_run {digits rest : List Char} (hrun : MaximalRun Char.isDigit digits rest)
    (count value : Nat) (hle : valueAfter 10 value digits ≤ limit) :
    readDigits limit count value (digits ++ rest) =
      ⟨count + digits.length, some (valueAfter 10 value digits)⟩ := by
  induction digits generalizing count value with
  | nil =>
      cases rest with
      | nil => rfl
      | cons c rest =>
          have hc : c.isDigit = false := noneAhead_cons.mp hrun.stops
          simp [readDigits, hc]
  | cons c digits ih =>
      have hc : c.isDigit = true := hrun.all c List.mem_cons_self
      have htail : MaximalRun Char.isDigit digits rest :=
        ⟨fun d hd ↦ hrun.all d (List.mem_cons_of_mem c hd), hrun.stops⟩
      have hnext : ¬limit < value * 10 + digitValue c := by
        have hmono := le_valueAfter (by omega : 0 < 10) (value * 10 + digitValue c) digits
        rw [valueAfter_cons] at hle
        omega
      rw [List.cons_append, readDigits, if_pos hc]
      simp only [if_neg hnext]
      rw [ih htail _ _ hle, valueAfter_cons, List.length_cons]
      congr 1
      omega

theorem readDigits_past {front : List Char} {d : Char} (hfront : ∀ c ∈ front, c.isDigit = true)
    (hd : d.isDigit = true) (rest : List Char) (count value : Nat)
    (hle : valueAfter 10 value front ≤ limit)
    (hlt : limit < valueAfter 10 value (front ++ [d])) :
    readDigits limit count value (front ++ d :: rest) = ⟨count + front.length + 1, none⟩ := by
  induction front generalizing count value with
  | nil =>
      have hnext : limit < value * 10 + digitValue d := by simpa using hlt
      simp [readDigits, hd, hnext]
  | cons c front ih =>
      have hc : c.isDigit = true := hfront c List.mem_cons_self
      have hnext : ¬limit < value * 10 + digitValue c := by
        have hmono := le_valueAfter (by omega : 0 < 10) (value * 10 + digitValue c) front
        rw [valueAfter_cons] at hle
        omega
      rw [List.cons_append, readDigits, if_pos hc]
      simp only [if_neg hnext]
      rw [ih (fun e he ↦ hfront e (List.mem_cons_of_mem c he)) _ _ hle (by simpa using hlt),
        List.length_cons]
      congr 1
      omega

/-- Where a value passes the limit there is a digit that takes it past. -/
theorem exists_past {digits : List Char} (value : Nat) (hle : value ≤ limit)
    (hlt : limit < valueAfter 10 value digits) :
    ∃ front d rear, digits = front ++ d :: rear ∧ valueAfter 10 value front ≤ limit ∧
      limit < valueAfter 10 value (front ++ [d]) := by
  induction digits generalizing value with
  | nil => exact absurd hlt (Nat.not_lt.mpr hle)
  | cons c digits ih =>
      by_cases hnext : limit < value * 10 + digitValue c
      · exact ⟨[], c, digits, rfl, hle, by simpa using hnext⟩
      · obtain ⟨front, d, rear, rfl, hfront, hpast⟩ := ih _ (Nat.not_lt.mp hnext) hlt
        exact ⟨c :: front, d, rear, rfl, by simpa using hfront, by simpa using hpast⟩

/-! ## The three things in front of a text -/

theorem readDigits_of_noneAhead {text : List Char} (h : NoneAhead Char.isDigit text) :
    readDigits limit 0 0 text = ⟨0, some 0⟩ :=
  @readDigits_run limit [] text ⟨by simp, h⟩ 0 0 (Nat.zero_le limit)

theorem Decimal.readDigits_eq {digits rest : List Char} (h : Decimal limit digits rest) :
    readDigits limit 0 0 (digits ++ rest) = ⟨digits.length, some (digitsValue 10 digits)⟩ := by
  rw [readDigits_run h.run 0 0 h.le, Nat.zero_add]
  rfl

theorem Overflow.readDigits_eq {digits : List Char} (h : Overflow limit digits)
    (rest : List Char) : readDigits limit 0 0 (digits ++ rest) = ⟨digits.length, none⟩ := by
  obtain ⟨front, d, rfl⟩ := (List.eq_nil_or_concat digits).resolve_left h.ne_nil
  have hle : valueAfter 10 0 front ≤ limit := by simpa [digitsValue] using h.le
  have hread := readDigits_past (fun c hc ↦ h.all c (by simp [hc])) (h.all d (by simp)) rest 0 0
    hle (by simpa [digitsValue] using h.lt)
  simpa [Nat.add_comm] using hread

theorem decimal_cases (limit : Nat) (text : List Char) :
    NoneAhead Char.isDigit text ∨
      ∃ digits rest, text = digits ++ rest ∧
        (Decimal limit digits rest ∨ Overflow limit digits) := by
  obtain ⟨run, rest, rfl, hrun⟩ := exists_maximalRun Char.isDigit text
  by_cases hnil : run = []
  · subst hnil
    exact Or.inl hrun.stops
  · refine Or.inr ?_
    by_cases hle : digitsValue 10 run ≤ limit
    · exact ⟨run, rest, rfl, Or.inl ⟨hrun, hnil, hle⟩⟩
    · obtain ⟨front, d, rear, rfl, hfront, hpast⟩ :=
        exists_past 0 (Nat.zero_le limit) (Nat.not_le.mp hle)
      have hfront' : digitsValue 10 (front ++ [d]).dropLast ≤ limit := by
        rw [List.dropLast_concat]
        exact hfront
      refine ⟨front ++ [d], rear ++ rest, by simp, Or.inr ⟨?_, hpast, hfront'⟩⟩
      intro c hc
      apply hrun.all
      simp only [List.mem_append, List.mem_cons, List.not_mem_nil, or_false] at hc ⊢
      exact hc.imp_right Or.inl

end AsmLexer.Literal
