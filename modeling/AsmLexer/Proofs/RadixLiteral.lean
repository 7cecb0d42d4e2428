import AsmLexer.Proofs.Lexeme
import AsmLexer.Proofs.Splitting
import AsmLexer.Proofs.Stops
import Mathlib.Data.Nat.Digits.Defs

/-!
# Hexadecimal and binary literals

Hexadecimal digits are judged by the number that they write, and so any zeros may stand in front of
them. Binary digits are judged by how many they are, and zeros in front count like the others. Both
readers keep to the numbers of 64 bits, and every such number can be written in either notation.
-/

namespace AsmLexer

open Text Grammar

namespace Text

/-! ## Hexadecimal digits -/

theorem toNat_lt_of_isHexDigit {c : Char} (h : isHexDigit c = true) : c.toNat < 128 := by
  simp only [isHexDigit, Char.isDigit, Bool.or_eq_true, Bool.and_eq_true, decide_eq_true_eq] at h
  rcases h with (⟨-, hlast⟩ | ⟨-, hlast⟩) | ⟨-, hlast⟩
  · exact Nat.lt_of_le_of_lt hlast (by decide)
  · exact Nat.lt_of_le_of_lt hlast (by decide)
  · exact Nat.lt_of_le_of_lt hlast (by decide)

/-- What holds of the hexadecimal digits among the first characters holds of all of them. -/
theorem forall_isHexDigit {P : Char → Prop}
    (h : ∀ n < 128, isHexDigit (Char.ofNat n) = true → P (Char.ofNat n)) {c : Char}
    (hc : isHexDigit c = true) : P c := by
  have hfirst := h c.toNat (toNat_lt_of_isHexDigit hc)
  rw [Char.ofNat_toNat] at hfirst
  exact hfirst hc

theorem digitValue_lt_sixteen {c : Char} (h : isHexDigit c = true) : digitValue c < 16 :=
  forall_isHexDigit (P := fun c ↦ digitValue c < 16) (by decide) h

theorem digitValue_toLower {c : Char} (h : isHexDigit c = true) :
    digitValue c.toLower = digitValue c :=
  forall_isHexDigit (P := fun c ↦ digitValue c.toLower = digitValue c) (by decide) h

theorem digitValue_pos {c : Char} (h : isHexDigit c = true) (hzero : c ≠ '0') :
    0 < digitValue c :=
  forall_isHexDigit (P := fun c ↦ c ≠ '0' → 0 < digitValue c) (by decide) h hzero

/-- The number is the same whether its letters are large or small. -/
theorem valueAfter_map_toLower (base value : Nat) {digits : List Char}
    (h : ∀ c ∈ digits, isHexDigit c = true) :
    valueAfter base value (digits.map Char.toLower) = valueAfter base value digits := by
  induction digits generalizing value with
  | nil => rfl
  | cons c digits ih =>
      have hc : digitValue c.toLower = digitValue c := digitValue_toLower (h c List.mem_cons_self)
      rw [List.map_cons, valueAfter_cons, valueAfter_cons, hc]
      exact ih _ fun d hd ↦ h d (List.mem_cons_of_mem c hd)

/-! ## Leading zeros -/

theorem digitsValue_dropZeros (base : Nat) (digits : List Char) :
    digitsValue base (digits.dropWhile (· = '0')) = digitsValue base digits := by
  induction digits with
  | nil => rfl
  | cons c digits ih =>
      by_cases hc : c = '0'
      · subst hc
        rw [List.dropWhile_cons_of_pos (by simp), ih, digitsValue, digitsValue, valueAfter_cons,
          Nat.zero_mul]
        rfl
      · rw [List.dropWhile_cons_of_neg (by simpa using hc)]

theorem mul_pow_le_valueAfter (base value : Nat) (digits : List Char) :
    value * base ^ digits.length ≤ valueAfter base value digits := by
  induction digits generalizing value with
  | nil => simp
  | cons c digits ih =>
      rw [valueAfter_cons, List.length_cons, Nat.pow_succ', ← Nat.mul_assoc]
      apply Nat.le_trans _ (ih _)
      exact Nat.mul_le_mul_right _ (Nat.le_add_right _ _)

/-- Without zeros in front, the number of digits tells whether there is room for the number. -/
theorem digitsValue_lt_iff_length_le {digits : List Char}
    (h : ∀ c ∈ digits, isHexDigit c = true) :
    digitsValue 16 digits < 2 ^ 64 ↔ (digits.dropWhile (· = '0')).length ≤ 16 := by
  rw [← digitsValue_dropZeros]
  have hstripped : ∀ c ∈ digits.dropWhile (· = '0'), isHexDigit c = true :=
    fun c hc ↦ h c ((List.dropWhile_sublist _).mem hc)
  have hhead := List.head?_dropWhile_not (· = '0') digits
  generalize digits.dropWhile (· = '0') = stripped at hstripped hhead
  constructor
  · intro hlt
    apply Nat.not_lt.mp
    intro hlong
    obtain ⟨c, tail, rfl⟩ := List.exists_cons_of_length_pos (Nat.zero_lt_of_lt hlong)
    have hc : 0 < digitValue c := by
      apply digitValue_pos (hstripped c List.mem_cons_self)
      simpa using hhead
    have hpow : 16 ^ 16 ≤ 16 ^ tail.length :=
      Nat.pow_le_pow_right (by decide) (Nat.le_of_lt_succ hlong)
    have hfirst : 16 ^ tail.length ≤ digitValue c * 16 ^ tail.length :=
      Nat.le_mul_of_pos_left _ hc
    have hvalue := mul_pow_le_valueAfter 16 (digitValue c) tail
    rw [digitsValue, valueAfter_cons, Nat.zero_mul, Nat.zero_add] at hlt
    omega
  · intro hshort
    have hlt := @valueAfter_lt 16 0 stripped fun c hc ↦ digitValue_lt_sixteen (hstripped c hc)
    have hpow : 16 ^ stripped.length ≤ 16 ^ 16 := Nat.pow_le_pow_right (by decide) hshort
    rw [digitsValue]
    omega

/-! ## Numerals -/

theorem exists_digitChar_of_mem_toDigits {base : Nat} (hbase : 1 < base) (n : Nat) :
    ∀ c ∈ Nat.toDigits base n, ∃ d < base, c = Nat.digitChar d := by
  induction n using Nat.strongRecOn with
  | ind n ih =>
      intro c hc
      by_cases hn : n < base
      · rw [Nat.toDigits_of_lt_base hn] at hc
        exact ⟨n, hn, List.mem_singleton.mp hc⟩
      · rw [Nat.toDigits_of_base_le hbase (Nat.not_lt.mp hn)] at hc
        rcases List.mem_append.mp hc with hfront | hlast
        · exact ih (n / base) (Nat.div_lt_self (by omega) hbase) c hfront
        · exact ⟨n % base, Nat.mod_lt n (by omega), List.mem_singleton.mp hlast⟩

theorem isHexDigit_of_mem_toDigits (n : Nat) : ∀ c ∈ Nat.toDigits 16 n, isHexDigit c = true := by
  intro c hc
  obtain ⟨d, hd, rfl⟩ := exists_digitChar_of_mem_toDigits (by decide) n c hc
  clear hc
  revert d
  decide

theorem isBinaryDigit_of_mem_toDigits (n : Nat) :
    ∀ c ∈ Nat.toDigits 2 n, isBinaryDigit c = true := by
  intro c hc
  obtain ⟨d, hd, rfl⟩ := exists_digitChar_of_mem_toDigits (by decide) n c hc
  clear hc
  revert d
  decide

end Text

theorem le_unsignedMax_iff {n : Nat} : n ≤ unsignedMax ↔ n < 2 ^ 64 := by
  rw [unsignedMax]
  omega

namespace Literal

/-- The ways to write an unsigned number. -/
inductive Spelling
  | plain
  | decimal
  | hex
  | binary
deriving DecidableEq

namespace Spelling

def mark : Spelling → List Char
  | .plain => []
  | .decimal => ['0', 'u']
  | .hex => ['0', 'x']
  | .binary => ['0', 'b']

def base : Spelling → Nat
  | .plain => 10
  | .decimal => 10
  | .hex => 16
  | .binary => 2

/-- Without a mark a number is an unsigned one in one mode only. -/
def ReadIn (mode : NumericMode) (s : Spelling) : Prop :=
  s = .plain → mode = .unsigned

theorem segment {words : List Char → Token.Body} {mode : NumericMode} {n : Nat} (s : Spelling)
    (hmode : s.ReadIn mode) (hn : n < 2 ^ 64) :
    Segment words mode s.mark (Nat.toDigits s.base n) [] (some (.unsigned n)) := by
  have hle : n ≤ unsignedMax := le_unsignedMax_iff.mpr hn
  have hdecimal := Literal.decimal_toString hle (noneAhead_nil (p := Char.isDigit))
  rw [toList_toString] at hdecimal
  have hvalue (base : Nat) (hbase : 1 < base) (hsixteen : base ≤ 16) :
      digitsValue base (Nat.toDigits base n) = n :=
    digitsValue_toDigits hbase hsixteen n
  cases s with
  | plain =>
      have hmark : Mark 'u' .unsigned mode [] (Nat.toDigits 10 n ++ []) :=
        .mode (hmode rfl) (unmarked_digits hdecimal.run.all hdecimal.ne_nil noneAhead_nil)
      have hsegment : Segment words mode [] _ [] _ := .unsigned hmark hdecimal
      rwa [hvalue 10 (by decide) (by decide)] at hsegment
  | decimal =>
      have hsegment : Segment words mode ['0', 'u'] _ [] _ := .unsigned (.letter _) hdecimal
      rwa [hvalue 10 (by decide) (by decide)] at hsegment
  | hex =>
      have hrun : MaximalRun isHexDigit (Nat.toDigits 16 n) [] :=
        ⟨isHexDigit_of_mem_toDigits n, noneAhead_nil⟩
      have hnumber := hvalue 16 (by decide) (by decide)
      have hsegment : Segment words mode ['0', 'x'] _ [] _ :=
        .hex hrun Nat.toDigits_ne_nil (hnumber.symm ▸ hle)
      rwa [hnumber] at hsegment
  | binary =>
      have hrun : MaximalRun isBinaryDigit (Nat.toDigits 2 n) [] :=
        ⟨isBinaryDigit_of_mem_toDigits n, noneAhead_nil⟩
      have hlength : (Nat.toDigits 2 n).length ≤ maxBinaryDigits :=
        Nat.toDigits_length 2 n 64 (by decide) hn
      have hsegment : Segment words mode ['0', 'b'] _ [] _ :=
        .binary hrun Nat.toDigits_ne_nil hlength
      rwa [hvalue 2 (by decide) (by decide)] at hsegment

end Spelling

end Literal

/-! ## Reading one -/

namespace Lexer

open Literal

variable {l : Lexer} {mark digits rest : List Char} {fault : SpanFault} {value : Nat}
  {fits : Prop} {span : List Char}

/-- What a run makes of the digits behind a mark: the token that covers them all if they fit, else
the fault over the part `span` of them, behind which the lexer then stands. -/
structure Decides (l : Lexer) (mark digits rest : List Char) (fault : SpanFault) (value : Nat)
    (fits : Prop) (span : List Char) : Prop where
  stored_iff : l.store.toList ++ [segmentToken l.file l.position mark digits (.unsigned value)] <+:
    l.run.2.store.toList ↔ fits
  run_token : fits → l.run = (l.advance (mark ++ digits) rest
    [segmentToken l.file l.position mark digits (.unsigned value)]).run
  run_fault : ¬fits → l.run =
    (.failed (.over fault ⟨l.position.past mark, l.position.past (mark ++ span), l.file⟩),
      l.advance (mark ++ span) (digits.drop span.length ++ rest) [])

theorem Decides.of_grammar (hspan : span <+: digits) (hrest : l.rest = mark ++ digits ++ rest)
    (hsegment : fits → Segment (Name.wordBody l.table) l.mode mark digits rest
      (some (.unsigned value)))
    (hfault : ¬fits → Fault l.mode fault mark span (digits.drop span.length ++ rest)) :
    l.Decides mark digits rest fault value fits span := by
  have hgood (h : fits) : l.run = (l.advance (mark ++ digits) rest
      [segmentToken l.file l.position mark digits (.unsigned value)]).run :=
    run_segment (hsegment h) hrest
  have hbad (h : ¬fits) : l.run =
      (.failed (.over fault ⟨l.position.past mark, l.position.past (mark ++ span), l.file⟩),
        l.advance (mark ++ span) (digits.drop span.length ++ rest) []) := by
    obtain ⟨behind, rfl⟩ := hspan
    rw [List.drop_left] at hfault ⊢
    have hcut : Cut (Name.wordBody l.table) l.mode l.file l.position l.rest [] []
        (mark ++ span ++ (behind ++ rest)) := by
      rw [hrest, ← List.append_assoc mark, List.append_assoc _ behind]
      exact .nil ..
    exact (RunsTo.fault hcut (hfault h)).run_eq
  refine ⟨⟨?_, ?_⟩, hgood, hbad⟩
  · intro hprefix
    apply Classical.byContradiction
    intro h
    have hlength := hprefix.length_le
    rw [hbad h, toList_store_advance, List.append_nil, List.length_append,
      List.length_singleton] at hlength
    omega
  · intro h
    rw [hgood h, ← toList_store_advance l (mark ++ digits) rest]
    exact (reaches_run _).store_isPrefix

/-- Hexadecimal digits fit if there are any and their number is within 64 bits. -/
theorem decides_hex (hrun : MaximalRun isHexDigit digits rest)
    (hrest : l.rest = ['0', 'x'] ++ digits ++ rest) :
    l.Decides ['0', 'x'] digits rest .hexLiteral (digitsValue 16 digits)
      (digits ≠ [] ∧ digitsValue 16 digits < 2 ^ 64) digits := by
  refine .of_grammar (List.prefix_refl _) hrest ?_ ?_
  · rintro ⟨hne, hlt⟩
    exact .hex hrun hne (le_unsignedMax_iff.mpr hlt)
  · intro h
    rw [List.drop_length, List.nil_append]
    refine .hex hrun ?_
    by_cases hnil : digits = []
    · exact .inl hnil
    · right
      apply Nat.not_le.mp
      rw [le_unsignedMax_iff]
      exact fun hlt ↦ h ⟨hnil, hlt⟩

/-- Binary digits fit if there are from 1 to 64 of them. The 65th is the last one that is read. -/
theorem decides_binary (hrun : MaximalRun isBinaryDigit digits rest)
    (hrest : l.rest = ['0', 'b'] ++ digits ++ rest) :
    l.Decides ['0', 'b'] digits rest .binaryLiteral (digitsValue 2 digits)
      (1 ≤ digits.length ∧ digits.length ≤ 64) (digits.take 65) := by
  refine .of_grammar (List.take_prefix _ _) hrest ?_ ?_
  · rintro ⟨hpos, hle⟩
    exact .binary hrun (List.length_pos_iff.mp hpos) hle
  · intro h
    by_cases hnil : digits = []
    · subst hnil
      exact .noBinary hrun.stops
    · have hpos := List.length_pos_iff.mpr hnil
      have hlong : 64 < digits.length := by omega
      apply Fault.longBinary
      · exact fun c hc ↦ hrun.all c (List.mem_of_mem_take hc)
      · exact List.length_take_of_le hlong

/-- Hexadecimal digits are read if the number that they write, in letters of either size, is within
64 bits, which leaves sixteen digits behind leading zeros. Binary digits are read if there are from
1 to 64 of them, zeros included. And each number within 64 bits is read the same in each notation.
-/
theorem run_hex_binary (l : Lexer) :
    (∀ digits rest, MaximalRun isHexDigit digits rest →
      l.rest = ['0', 'x'] ++ digits ++ rest →
        l.Decides ['0', 'x'] digits rest .hexLiteral (digitsValue 16 digits)
            (digits ≠ [] ∧ digitsValue 16 digits < 2 ^ 64) digits ∧
          (digitsValue 16 digits < 2 ^ 64 ↔ (digits.dropWhile (· = '0')).length ≤ 16) ∧
          ∀ others : List Char, (∀ c ∈ others, isHexDigit c = true) →
            others.map Char.toLower = digits.map Char.toLower →
              digitsValue 16 others = digitsValue 16 digits) ∧
      (∀ digits rest, MaximalRun isBinaryDigit digits rest →
        l.rest = ['0', 'b'] ++ digits ++ rest →
          l.Decides ['0', 'b'] digits rest .binaryLiteral (digitsValue 2 digits)
              (1 ≤ digits.length ∧ digits.length ≤ 64) (digits.take 65) ∧
            (digits.length ≤ 64 → digitsValue 2 digits < 2 ^ 64)) ∧
      ∀ n < 2 ^ 64, ∀ (spelling : Spelling) (mode : NumericMode), spelling.ReadIn mode →
        tokenize l.table mode l.file (spelling.mark ++ Nat.toDigits spelling.base n) =
          .tokens [segmentToken l.file .origin spelling.mark (Nat.toDigits spelling.base n)
            (.unsigned n)] := by
  refine ⟨?_, ?_, ?_⟩
  · intro digits rest hrun hrest
    refine ⟨decides_hex hrun hrest, digitsValue_lt_iff_length_le hrun.all, ?_⟩
    intro others hothers hsame
    rw [digitsValue, ← valueAfter_map_toLower 16 0 hothers, hsame]
    exact valueAfter_map_toLower 16 0 hrun.all
  · intro digits rest hrun hrest
    refine ⟨decides_binary hrun hrest, ?_⟩
    intro hle
    exact le_unsignedMax_iff.mp (digitsValue_binary_le hrun.all hle)
  · intro n hn spelling mode hmode
    have hcut : Cut (Name.wordBody l.table) mode l.file .origin
        (spelling.mark ++ Nat.toDigits spelling.base n ++ []) _ _ [] :=
      .cons (spelling.segment hmode hn) (.nil ..)
    rw [List.append_nil] at hcut
    exact tokenize_eq_of_yields (.tokens hcut)

/-- Eighteen hexadecimal digits are read when most of them are zeros in front, but 66 binary digits
are too many even if all of them are zeros. -/
theorem run_hex_binary_zeros :
    [segmentToken 0 .origin ['0', 'x'] "0000000000000001fF".toList (.unsigned 511)] <+:
        (start .standard .unsigned 0 "0x0000000000000001fF,".toList).run.2.store.toList ∧
      (start .standard .unsigned 0 ("0b".toList ++ List.replicate 66 '0')).run.1 =
        .failed (.over .binaryLiteral ⟨⟨2, 0, 2⟩, ⟨67, 0, 67⟩, 0⟩) := by
  have hhex : MaximalRun isHexDigit "0000000000000001fF".toList [','] :=
    ⟨List.all_eq_true.mp (by decide), noneAhead_cons.mpr (by decide)⟩
  have hbinary : MaximalRun isBinaryDigit (List.replicate 66 '0') [] :=
    ⟨List.all_eq_true.mp (by decide), noneAhead_nil⟩
  obtain ⟨hfirst, -, -⟩ :=
    run_hex_binary (start .standard .unsigned 0 "0x0000000000000001fF,".toList)
  obtain ⟨-, hsecond, -⟩ :=
    run_hex_binary (start .standard .unsigned 0 ("0b".toList ++ List.replicate 66 '0'))
  obtain ⟨hstored, -, -⟩ := hfirst _ _ hhex rfl
  obtain ⟨hdecides, -⟩ := hsecond _ _ hbinary rfl
  refine ⟨hstored.stored_iff.mpr ⟨by decide, by decide⟩, ?_⟩
  exact congrArg Prod.fst (hdecides.run_fault (by decide))

end Lexer

end AsmLexer
