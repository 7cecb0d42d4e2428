import AsmLexer.Proofs.Numeral
import AsmLexer.Proofs.Splitting
import AsmLexer.Proofs.Stops

/-!
# Decimal literals

The reader of a decimal literal looks at the limit after each digit and gives up at the first digit
that takes the value past it. A value never gets smaller as digits are added, so what is given up
is just what the value of all digits would rule out.
-/

namespace AsmLexer

open Text Grammar

theorem Text.digitsValue_take_le {base : Nat} (hbase : 0 < base) (digits : List Char) {j k : Nat}
    (hjk : j ≤ k) : digitsValue base (digits.take j) ≤ digitsValue base (digits.take k) := by
  have hsplit : digits.take k = digits.take j ++ (digits.take k).drop j := by
    rw [← Nat.min_eq_left hjk, ← List.take_take, Nat.min_eq_left hjk, List.take_append_drop]
  rw [hsplit, digitsValue, digitsValue, valueAfter_append]
  exact le_valueAfter hbase _ _

namespace Literal

/-- The digits up to the first one that takes the value past the limit. -/
theorem exists_overflow {limit : Nat} {digits : List Char}
    (hdigits : ∀ c ∈ digits, c.isDigit = true) (hlt : limit < digitsValue 10 digits) :
    ∃ k, k ≤ digits.length ∧ Overflow limit (digits.take k) ∧
      ∀ j < k, digitsValue 10 (digits.take j) ≤ limit := by
  obtain ⟨front, d, rear, rfl, hfront, hpast⟩ := exists_past 0 (Nat.zero_le limit) hlt
  have htake : (front ++ d :: rear).take (front.length + 1) = front ++ [d] := by
    rw [List.take_append, List.take_of_length_le (Nat.le_succ _), Nat.add_sub_cancel_left,
      List.take_succ_cons, List.take_zero]
  have hbefore : (front ++ d :: rear).take front.length = front := List.take_left
  refine ⟨front.length + 1, ?_, ⟨?_, ?_, ?_⟩, ?_⟩
  · simp
  · exact fun c hc ↦ hdigits c (List.mem_of_mem_take hc)
  · rw [htake]
    exact hpast
  · rw [htake, List.dropLast_concat]
    exact hfront
  · intro j hj
    have hmono := digitsValue_take_le (by decide : 0 < 10) (front ++ d :: rear)
      (Nat.le_of_lt_succ hj)
    rw [hbefore] at hmono
    exact Nat.le_trans hmono hfront

/-! ## The two kinds of decimal literals -/

/-- Only a signed literal may have a sign. -/
inductive DecimalKind
  | unsigned
  | signed (negative : Bool)
deriving DecidableEq

namespace DecimalKind

def letter : DecimalKind → Char
  | .unsigned => 'u'
  | .signed _ => 'i'

def mode : DecimalKind → NumericMode
  | .unsigned => .unsigned
  | .signed _ => .signed

def sign : DecimalKind → List Char
  | .unsigned => []
  | .signed negative => Grammar.sign negative

def limit : DecimalKind → Nat
  | .unsigned => unsignedMax
  | .signed _ => signedMax

/-- What the literal stands for when its digits write `magnitude`. -/
def body : DecimalKind → (magnitude : Nat) → Token.Body
  | .unsigned, magnitude => .unsigned magnitude
  | .signed negative, magnitude => .signed (signedValue negative magnitude)

def fault : DecimalKind → SpanFault
  | .unsigned => .unsignedLiteral
  | .signed _ => .signedLiteral

variable {kind : DecimalKind} {words : List Char → Token.Body} {mode : NumericMode}
  {mark digits rest : List Char}

theorem segment (hmark : Mark kind.letter kind.mode mode mark (kind.sign ++ digits ++ rest))
    (hnumber : Decimal kind.limit digits rest) :
    Segment words mode mark (kind.sign ++ digits) rest
      (some (kind.body (digitsValue 10 digits))) := by
  cases kind with
  | unsigned => exact .unsigned hmark hnumber
  | signed negative => exact .signed negative hmark hnumber

theorem fault_of_overflow
    (hmark : Mark kind.letter kind.mode mode mark (kind.sign ++ digits ++ rest))
    (hpast : Overflow kind.limit digits) :
    Fault mode kind.fault mark (kind.sign ++ digits) rest := by
  cases kind with
  | unsigned => exact .unsigned hmark hpast
  | signed negative => exact .signed negative hmark hpast

/-- The least word has a magnitude beyond the limit. -/
theorem limit_lt_of_body_eq {magnitude : Nat} (h : kind.body magnitude = .signed signedMin) :
    kind.limit < magnitude := by
  cases kind with
  | unsigned => cases h
  | signed negative =>
      have hvalue : signedValue negative magnitude = signedMin := Token.Body.signed.inj h
      have hmagnitude := natAbs_signedValue negative magnitude
      rw [hvalue] at hmagnitude
      subst hmagnitude
      change signedMax < signedMin.natAbs
      decide

end DecimalKind

end Literal

/-! ## Reading one -/

namespace Lexer

open Literal

/-- The run fails in the decimal literal ahead, right after `count` of its digits: they are the
fewest that write a number beyond the limit. -/
structure FailsAfter (l : Lexer) (kind : DecimalKind) (mark digits rest : List Char)
    (count : Nat) : Prop where
  le_length : count ≤ digits.length
  lt : kind.limit < digitsValue 10 (digits.take count)
  fewest : ∀ j < count, digitsValue 10 (digits.take j) ≤ kind.limit
  run_eq : l.run =
    (.failed (.over kind.fault ⟨l.position.past mark,
      l.position.past (mark ++ (kind.sign ++ digits.take count)), l.file⟩),
      l.advance (mark ++ (kind.sign ++ digits.take count)) (digits.drop count ++ rest) [])

variable {l : Lexer} {kind : DecimalKind} {mark digits rest : List Char}

theorem exists_failsAfter
    (hmark : Mark kind.letter kind.mode l.mode mark (kind.sign ++ digits ++ rest))
    (hdigits : ∀ c ∈ digits, c.isDigit = true) (hlt : kind.limit < digitsValue 10 digits)
    (hrest : l.rest = mark ++ (kind.sign ++ digits) ++ rest) :
    ∃ count, l.FailsAfter kind mark digits rest count := by
  obtain ⟨count, hcount, hpast, hfewest⟩ := exists_overflow hdigits hlt
  have htext : kind.sign ++ digits ++ rest =
      kind.sign ++ digits.take count ++ (digits.drop count ++ rest) := by
    rw [List.append_assoc, List.append_assoc, ← List.append_assoc (digits.take count),
      List.take_append_drop]
  rw [htext] at hmark
  have hcut : Cut (Name.wordBody l.table) l.mode l.file l.position l.rest [] []
      (mark ++ (kind.sign ++ digits.take count) ++ (digits.drop count ++ rest)) := by
    rw [hrest, List.append_assoc, htext, ← List.append_assoc]
    exact .nil ..
  have hstop := RunsTo.fault hcut (DecimalKind.fault_of_overflow hmark hpast)
  exact ⟨count, hcount, hpast.lt, hfewest, hstop.run_eq⟩

/-- A failed run has found no token. -/
theorem FailsAfter.toList_store {count : Nat} (h : l.FailsAfter kind mark digits rest count) :
    l.run.2.store.toList = l.store.toList := by
  rw [h.run_eq, toList_store_advance, List.append_nil]

/-- In front of a decimal literal a token is found exactly if all its digits write a number within
the limit, and the token covers the sign and all of them. Else the run fails as soon as the number
is beyond the limit. The least word has a magnitude that is beyond it. -/
theorem run_decimal (kind : DecimalKind)
    (hmark : Mark kind.letter kind.mode l.mode mark (kind.sign ++ digits ++ rest))
    (hrun : MaximalRun Char.isDigit digits rest) (hne : digits ≠ [])
    (hrest : l.rest = mark ++ (kind.sign ++ digits) ++ rest) :
    let token := segmentToken l.file l.position mark (kind.sign ++ digits)
      (kind.body (digitsValue 10 digits))
    (l.store.toList ++ [token] <+: l.run.2.store.toList ↔ digitsValue 10 digits ≤ kind.limit) ∧
      (digitsValue 10 digits ≤ kind.limit →
        l.run = (l.advance (mark ++ (kind.sign ++ digits)) rest [token]).run) ∧
      (kind.limit < digitsValue 10 digits →
        ∃ count, l.FailsAfter kind mark digits rest count) ∧
      (token.body = .signed signedMin → ∃ e, l.run.1 = .failed e) := by
  intro token
  have hwithin (hle : digitsValue 10 digits ≤ kind.limit) :
      l.run = (l.advance (mark ++ (kind.sign ++ digits)) rest [token]).run :=
    run_segment (kind.segment hmark ⟨hrun, hne, hle⟩) hrest
  have hbeyond (hlt : kind.limit < digitsValue 10 digits) :
      ∃ count, l.FailsAfter kind mark digits rest count :=
    exists_failsAfter hmark hrun.all hlt hrest
  refine ⟨⟨?_, ?_⟩, hwithin, hbeyond, ?_⟩
  · intro hprefix
    apply Nat.not_lt.mp
    intro hlt
    obtain ⟨count, hfails⟩ := hbeyond hlt
    have hlength := hprefix.length_le
    rw [hfails.toList_store, List.length_append, List.length_singleton] at hlength
    omega
  · intro hle
    rw [hwithin hle, ← toList_store_advance l (mark ++ (kind.sign ++ digits)) rest [token]]
    exact (reaches_run _).store_isPrefix
  · intro hmin
    obtain ⟨count, hfails⟩ := hbeyond (DecimalKind.limit_lt_of_body_eq hmin)
    exact ⟨_, congrArg Prod.fst hfails.run_eq⟩

/-- The least word is given up at its last digit, and zeros in front make no difference. -/
theorem run_decimal_least :
    (start .standard .signed 0 "-009223372036854775808,".toList).run =
        (.failed (.over .signedLiteral ⟨⟨0, 0, 0⟩, ⟨22, 0, 22⟩, 0⟩),
          (start .standard .signed 0 "-009223372036854775808,".toList).advance
            "-009223372036854775808".toList [','] []) := by
  have hmark : Mark 'i' .signed .signed [] (['-'] ++ "009223372036854775808".toList ++ [',']) := by
    refine .mode rfl ?_
    intro c rest htext
    exact absurd (List.cons.inj htext).1 (by decide)
  have hrun : MaximalRun Char.isDigit "009223372036854775808".toList [','] :=
    ⟨List.all_eq_true.mp (by decide), noneAhead_cons.mpr (by decide)⟩
  obtain ⟨-, -, hbeyond, -⟩ := @run_decimal
    (start .standard .signed 0 "-009223372036854775808,".toList) [] _ _ (.signed true) hmark hrun
    (by decide) rfl
  obtain ⟨count, hfails⟩ := hbeyond (by decide)
  -- Twenty of the digits write a number that is within the limit.
  have hcount : count = 21 := by
    have hle := hfails.le_length
    have hlength : "009223372036854775808".toList.length = 21 := rfl
    have hlt : ¬count < 21 := by
      intro hshort
      have htake := digitsValue_take_le (by decide : 0 < 10) "009223372036854775808".toList
        (Nat.le_of_lt_succ hshort)
      have hpast := hfails.lt
      have hwithin : digitsValue 10 ("009223372036854775808".toList.take 20) ≤ signedMax := by
        decide
      exact absurd (Nat.le_trans htake hwithin) (Nat.not_le.mpr hpast)
    omega
  subst hcount
  exact hfails.run_eq

end Lexer

end AsmLexer
