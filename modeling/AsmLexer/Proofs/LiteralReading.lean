import AsmLexer.Proofs.Grammar

/-!
# Reading literals

The readers of literals find what the grammar says is there.
-/

namespace AsmLexer

open Text Grammar

namespace Literal

/-! ## Decimal numbers -/

theorem readUnsigned_decimal (lead : Nat) {digits rest : List Char}
    (h : Decimal unsignedMax digits rest) :
    readUnsigned lead (digits ++ rest) =
      .token (.unsigned (digitsValue 10 digits)) lead digits.length := by
  have hlength : digits.length ≠ 0 := by simpa using h.ne_nil
  simp [readUnsigned, h.readDigits_eq, hlength]

theorem readUnsigned_overflow (lead : Nat) {digits : List Char} (rest : List Char)
    (h : Overflow unsignedMax digits) :
    readUnsigned lead (digits ++ rest) = .over .unsignedLiteral lead digits.length := by
  simp [readUnsigned, h.readDigits_eq]

theorem readUnsigned_noneAhead (lead : Nat) {text : List Char}
    (h : NoneAhead Char.isDigit text) :
    readUnsigned lead text = .over .unsignedLiteral lead 0 := by
  simp [readUnsigned, readDigits_of_noneAhead h]

theorem readSigned_sign (lead : Nat) (negative : Bool) {text : List Char}
    (hminus : negative = false → text.head? ≠ some '-') :
    readSigned lead (sign negative ++ text) =
      readMagnitude lead (sign negative).length negative text := by
  cases negative with
  | true => rfl
  | false =>
      have hhead := hminus rfl
      change readSigned lead text = readMagnitude lead 0 false text
      unfold readSigned
      split
      · simp at hhead
      · rfl

theorem head?_append_ne_minus {digits : List Char} (rest : List Char)
    (hdigits : ∀ c ∈ digits, c.isDigit = true) (hne : digits ≠ []) :
    (digits ++ rest).head? ≠ some '-' := by
  obtain ⟨c, digits, rfl⟩ := List.exists_cons_of_ne_nil hne
  have hc := hdigits c List.mem_cons_self
  rintro h
  obtain rfl : c = '-' := by simpa using h
  simp at hc

theorem readSigned_decimal (lead : Nat) (negative : Bool) {digits rest : List Char}
    (h : Decimal signedMax digits rest) :
    readSigned lead (sign negative ++ digits ++ rest) =
      .token (.signed (signedValue negative (digitsValue 10 digits))) lead
        (sign negative ++ digits).length := by
  have hlength : digits.length ≠ 0 := by simpa using h.ne_nil
  rw [List.append_assoc, readSigned_sign lead negative fun _ ↦
    head?_append_ne_minus rest h.run.all h.ne_nil]
  simp [readMagnitude, h.readDigits_eq, hlength, signedValue]

theorem readSigned_overflow (lead : Nat) (negative : Bool) {digits : List Char}
    (rest : List Char) (h : Overflow signedMax digits) :
    readSigned lead (sign negative ++ digits ++ rest) =
      .over .signedLiteral lead (sign negative ++ digits).length := by
  rw [List.append_assoc, readSigned_sign lead negative fun _ ↦
    head?_append_ne_minus rest h.all h.ne_nil]
  simp [readMagnitude, h.readDigits_eq]

theorem readSigned_noneAhead (lead : Nat) (negative : Bool) {rest : List Char}
    (hminus : negative = false → rest.head? ≠ some '-') (h : NoneAhead Char.isDigit rest) :
    readSigned lead (sign negative ++ rest) =
      .over .signedLiteral (lead + (sign negative).length) 0 := by
  rw [readSigned_sign lead negative hminus]
  simp [readMagnitude, readDigits_of_noneAhead h]

/-! ## Hexadecimal and binary numbers -/

theorem readHex_segment {digits rest : List Char} (hrun : MaximalRun isHexDigit digits rest)
    (hne : digits ≠ []) (hle : digitsValue 16 digits ≤ unsignedMax) :
    readHex (digits ++ rest) = .token (.unsigned (digitsValue 16 digits)) 2 digits.length := by
  simp [readHex, hrun.takeWhile_append, hne, Nat.not_lt.mpr hle]

theorem readHex_fault {digits rest : List Char} (hrun : MaximalRun isHexDigit digits rest)
    (hdigits : digits = [] ∨ unsignedMax < digitsValue 16 digits) :
    readHex (digits ++ rest) = .over .hexLiteral 2 digits.length := by
  simp [readHex, hrun.takeWhile_append, hdigits]

theorem readBinary_segment {digits rest : List Char} (hrun : MaximalRun isBinaryDigit digits rest)
    (hne : digits ≠ []) (hle : digits.length ≤ maxBinaryDigits) :
    readBinary (digits ++ rest) =
      .token (.unsigned (digitsValue 2 digits)) 2 digits.length := by
  simp [readBinary, hrun.takeWhile_append, hne, Nat.not_lt.mpr hle]

theorem readBinary_noneAhead {rest : List Char} (hrest : NoneAhead isBinaryDigit rest) :
    readBinary rest = .over .binaryLiteral 2 0 := by
  simp [readBinary, takeWhile_eq_nil_iff.mpr hrest]

theorem readBinary_long {digits : List Char} (rest : List Char)
    (hdigits : ∀ c ∈ digits, isBinaryDigit c = true)
    (hlength : digits.length = maxBinaryDigits + 1) :
    readBinary (digits ++ rest) = .over .binaryLiteral 2 digits.length := by
  have hne : digits ≠ [] := by
    rintro rfl
    simp at hlength
  have hlong : maxBinaryDigits < maxBinaryDigits + 1 + (rest.takeWhile isBinaryDigit).length := by
    omega
  simp [readBinary, List.takeWhile_append_of_pos hdigits, hne, hlong, hlength]

theorem readZero_unmarked (mode : NumericMode) {cs : List Char} (h : Unmarked ('0' :: cs)) :
    readZero mode cs = readUnmarked mode '0' cs := by
  unfold readZero
  split
  case h_6 => rfl
  all_goals exact absurd (by decide) (h _ _ rfl)

end Literal

end AsmLexer
