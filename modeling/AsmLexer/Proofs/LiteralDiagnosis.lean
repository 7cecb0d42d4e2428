import AsmLexer.Diagnostic.Report
import AsmLexer.Proofs.RadixLiteral

/-!
# What is said about faulty literals

The catalog has one entry for each kind of literal that cannot be read, and a literal may be at
fault in more than one way. What an entry says is true of every literal that it is used for, except
where `0b` is followed by no digit at all: such a literal is said to be too long.
-/

namespace AsmLexer

open Text Grammar Position Literal

namespace Diagnostic

/-- The codes of the literals that cannot be read. -/
def Code.literal : List Code :=
  [.hexLiteral, .binaryLiteral, .floatLiteral, .unsignedLiteral, .signedLiteral]

/-- What the entry of a code says about literals, where an error covers the characters `span`
between `front` and `rest`. -/
inductive Code.AppliesTo : Code → (front span rest : List Char) → Prop
  /-- A hexadecimal literal needs between 1 and 16 digits after `0x`. -/
  | hex {front span rest digits behind : List Char} (hmark : ['0', 'x'] <:+ front)
      (htext : span ++ rest = digits ++ behind) (hrun : MaximalRun isHexDigit digits behind)
      (hlength : digits = [] ∨ 16 < digits.length) : AppliesTo .hexLiteral front span rest
  /-- A binary literal holds at most 64 digits after `0b`. -/
  | binary {front span rest digits behind : List Char} (hmark : ['0', 'b'] <:+ front)
      (htext : span ++ rest = digits ++ behind) (hrun : MaximalRun isBinaryDigit digits behind)
      (hlength : 64 < digits.length) : AppliesTo .binaryLiteral front span rest
  /-- An unsigned literal must have at least one digit. -/
  | noUnsigned (front : List Char) {rest : List Char} (hrest : NoneAhead Char.isDigit rest) :
      AppliesTo .unsignedLiteral front [] rest
  /-- An unsigned literal must fit in 64 bits. -/
  | unsigned (front rest : List Char) {digits : List Char}
      (hdigits : ∀ c ∈ digits, c.isDigit = true) (hvalue : 2 ^ 64 ≤ digitsValue 10 digits) :
      AppliesTo .unsignedLiteral front digits rest
  /-- A signed literal must have at least one digit. -/
  | noSigned (front : List Char) {rest : List Char} (hrest : NoneAhead Char.isDigit rest) :
      AppliesTo .signedLiteral front [] rest
  /-- A signed literal must have a magnitude that fits in 63 bits. -/
  | signed (front rest : List Char) (negative : Bool) {digits : List Char}
      (hdigits : ∀ c ∈ digits, c.isDigit = true) (hvalue : 2 ^ 63 ≤ digitsValue 10 digits) :
      AppliesTo .signedLiteral front (sign negative ++ digits) rest

end Diagnostic

open Diagnostic

section

variable {mode : NumericMode} {lead span rest : List Char} {fault : SpanFault}

/-- A number that is too large for a word has more digits than there is room for. -/
theorem Text.lt_length_of_unsignedMax_lt {digits : List Char}
    (hdigits : ∀ c ∈ digits, isHexDigit c = true) (hlt : unsignedMax < digitsValue 16 digits) :
    16 < digits.length := by
  have hstripped : ¬(digits.dropWhile (· = '0')).length ≤ 16 := by
    rw [← digitsValue_lt_iff_length_le hdigits, ← le_unsignedMax_iff]
    exact Nat.not_le.mpr hlt
  have hsublist := (List.dropWhile_sublist (· = '0') (l := digits)).length_le
  omega

/-- The digits that are given up at the 65th go on up to the end of their run. -/
theorem Text.exists_binary_run (hspan : ∀ c ∈ span, isBinaryDigit c = true) (rest : List Char) :
    ∃ digits behind, span ++ rest = digits ++ behind ∧ MaximalRun isBinaryDigit digits behind ∧
      span.length ≤ digits.length := by
  obtain ⟨more, behind, rfl, hrun⟩ := exists_maximalRun isBinaryDigit rest
  refine ⟨span ++ more, behind, (List.append_assoc ..).symm, ⟨?_, hrun.stops⟩, ?_⟩
  · intro c hc
    exact (List.mem_append.mp hc).elim (hspan c) (hrun.all c)
  · rw [List.length_append]
    exact Nat.le_add_right ..

theorem Diagnostic.codeOf_over_eq_binaryLiteral_iff {range : Range} :
    codeOf (.over fault range) = .binaryLiteral ↔ fault = .binaryLiteral := by
  cases fault <;> simp [codeOf]

theorem Grammar.Fault.appliesTo (h : Fault mode fault lead span rest) {range : Range}
    (hcode : codeOf (.over fault range) ∈ Code.literal)
    (hdigit : ¬(fault = .binaryLiteral ∧ span = [])) (front : List Char) :
    (codeOf (.over fault range)).AppliesTo (front ++ lead) span rest := by
  cases h with
  | directive => exact absurd hcode (by decide : Code.directive ∉ Code.literal)
  | register => exact absurd hcode (by decide : Code.register ∉ Code.literal)
  | hex hrun hdigits =>
      apply Code.AppliesTo.hex (List.suffix_append ..) rfl hrun
      exact hdigits.imp_right (lt_length_of_unsignedMax_lt hrun.all)
  | noBinary => exact absurd ⟨rfl, rfl⟩ hdigit
  | longBinary _ hdigits hlength =>
      obtain ⟨digits, behind, htext, hrun, hle⟩ := exists_binary_run hdigits rest
      apply Code.AppliesTo.binary (List.suffix_append ..) htext hrun
      exact Nat.lt_of_lt_of_le (hlength ▸ Nat.lt_succ_self maxBinaryDigits) hle
  | noUnsigned hrest => exact .noUnsigned _ hrest
  | unsigned _ hpast => exact .unsigned _ _ hpast.all hpast.lt
  | noSigned _ _ _ _ hrest => exact .noSigned _ hrest
  | signed negative _ hpast => exact .signed _ _ negative hpast.all hpast.lt

/-- A literal that is said to be too long has a digit. -/
theorem Diagnostic.Code.AppliesTo.not_noneAhead {front : List Char}
    (h : Code.binaryLiteral.AppliesTo front [] rest) : ¬NoneAhead isBinaryDigit rest := by
  intro hnone
  cases h with
  | binary _ htext hrun hlength =>
      obtain ⟨c, digits, rfl⟩ := List.exists_cons_of_length_pos (Nat.zero_lt_of_lt hlength)
      obtain rfl := htext
      have hc : isBinaryDigit c = false := noneAhead_cons.mp hnone
      rw [hrun.all c List.mem_cons_self] at hc
      cases hc

/-- Where a `0b` is at fault and the error covers nothing, no digit follows it. -/
theorem Grammar.Fault.noneAhead_of_binary (h : Fault mode .binaryLiteral lead [] rest) :
    lead = ['0', 'b'] ∧ NoneAhead isBinaryDigit rest := by
  cases h with
  | noBinary hrest => exact ⟨rfl, hrest⟩
  | longBinary _ _ hlength => cases hlength

end

/-- What the catalog says about a literal that cannot be read is true of it, but for `0b` without a
digit. -/
theorem appliesTo_iff {table : InstructionTable} {mode : NumericMode} {file : Handle}
    {text : List Char} {e : LexError} (h : tokenize table mode file text = .error e)
    (hcode : codeOf e ∈ Code.literal) :
    ∃ front span rest, text = front ++ (span ++ rest) ∧ e.start = origin.past front ∧
      e.stop = origin.past (front ++ span) ∧
      ((codeOf e).AppliesTo front span rest ↔ ¬(codeOf e = .binaryLiteral ∧ span = [])) ∧
      (codeOf e = .binaryLiteral → span = [] →
        ['0', 'b'] <:+ front ∧ NoneAhead isBinaryDigit rest) := by
  obtain ⟨front, rear, rfl, herror⟩ := exists_errorAt_of_tokenize h
  cases herror with
  | unexpected => exact absurd hcode (by decide : Code.unexpectedCharacter ∉ Code.literal)
  | missing hmissing =>
      cases hmissing with
      | identifier => exact absurd hcode (by decide : Code.emptyIdentifier ∉ Code.literal)
      | register => exact absurd hcode (by decide : Code.registerAtEnd ∉ Code.literal)
  | @fault fault lead span rest hfault =>
      rw [codeOf_over_eq_binaryLiteral_iff]
      have hempty : fault = .binaryLiteral → span = [] →
          ['0', 'b'] <:+ front ++ lead ∧ NoneAhead isBinaryDigit rest := by
        rintro rfl rfl
        obtain ⟨rfl, hnone⟩ := hfault.noneAhead_of_binary
        exact ⟨List.suffix_append .., hnone⟩
      refine ⟨front ++ lead, span, rest, ?_, ?_, ?_, ⟨?_, ?_⟩, hempty⟩
      · simp only [List.append_assoc]
      · exact (past_append ..).symm
      · rw [LexError.stop, List.append_assoc]
        exact (past_append ..).symm
      · rintro happlies ⟨rfl, rfl⟩
        exact happlies.not_noneAhead (hempty rfl rfl).2
      · intro hdigit
        exact hfault.appliesTo hcode hdigit front

/-- The least word is a signed literal that is too large, as its entry says. -/
theorem appliesTo_iff_least :
    ∃ front span rest, "ld 0i-9223372036854775808".toList = front ++ (span ++ rest) ∧
      (⟨5, 0, 5⟩ : Position) = origin.past front ∧ ⟨25, 0, 25⟩ = origin.past (front ++ span) ∧
        Code.signedLiteral.AppliesTo front span rest := by
  have htokenize : tokenize .standard .float 0 "ld 0i-9223372036854775808".toList =
      .error (.over .signedLiteral ⟨⟨5, 0, 5⟩, ⟨25, 0, 25⟩, 0⟩) := by
    decide +kernel
  obtain ⟨front, span, rest, htext, hstart, hstop, happlies, -⟩ :=
    appliesTo_iff htokenize (by decide)
  refine ⟨front, span, rest, htext, hstart, hstop, happlies.mpr ?_⟩
  rintro ⟨hbinary, -⟩
  cases hbinary

/-- A `0b` without a digit is reported as a literal that is too long. -/
theorem not_appliesTo_binary_mark :
    tokenize .standard .unsigned 0 "0b".toList =
        .error (.over .binaryLiteral ⟨⟨2, 0, 2⟩, ⟨2, 0, 2⟩, 0⟩) ∧
      (diagnose (.over .binaryLiteral ⟨⟨2, 0, 2⟩, ⟨2, 0, 2⟩, 0⟩) ⟨0, "main.vasm", "0b"⟩).message =
        "binary literal is longer than 64 bits" ∧
      ¬Code.binaryLiteral.AppliesTo "0b".toList [] [] := by
  refine ⟨by decide +kernel, by decide +kernel, ?_⟩
  intro happlies
  exact happlies.not_noneAhead noneAhead_nil

end AsmLexer
