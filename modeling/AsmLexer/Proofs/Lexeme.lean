import AsmLexer.Proofs.NameReading
import AsmLexer.Proofs.Numeral

/-!
# Lexemes

What can be written for a token: the characters that it covers and those that only announce it. A
lexeme is read as what it was written for if nothing behind it can go on with it.
-/

namespace AsmLexer

open Text Grammar

/-! ## What may go on with a lexeme -/

/-- The characters of names and of numbers. -/
def goesOn (c : Char) : Bool :=
  isNameChar c || isAlphanumeric c

theorem goesOn_of_isNameChar {c : Char} (h : isNameChar c = true) : goesOn c = true := by
  simp [goesOn, h]

theorem goesOn_of_isAlphanumeric {c : Char} (h : isAlphanumeric c = true) : goesOn c = true := by
  simp [goesOn, h]

theorem goesOn_of_isDigit {c : Char} (h : c.isDigit = true) : goesOn c = true :=
  goesOn_of_isAlphanumeric (isAlphanumeric_of_isDigit h)

theorem goesOn_of_mem_markLetters : ∀ c ∈ markLetters, goesOn c = true :=
  List.all_eq_true.mp (by decide)

theorem isDigit_eq_false_of_mem_markLetters {c : Char} (h : c ∈ markLetters) :
    c.isDigit = false := by
  have hall : (markLetters.all fun c ↦ !c.isDigit) = true := by decide
  simpa using List.all_eq_true.mp hall c h

theorem goesOn_of_isBinaryDigit {c : Char} (h : isBinaryDigit c = true) : goesOn c = true := by
  simp only [isBinaryDigit, Bool.or_eq_true, beq_iff_eq] at h
  apply goesOn_of_isDigit
  rcases h with rfl | rfl <;> rfl

theorem isAlphabetic_of_isHexDigit {c : Char} (h : isHexDigit c = true)
    (hdigit : c.isDigit = false) : Unicode.isAlphabetic c = true := by
  have hcases : ('a' ≤ c ∧ c ≤ 'f') ∨ ('A' ≤ c ∧ c ≤ 'F') := by
    simpa [isHexDigit, hdigit] using h
  unfold Unicode.isAlphabetic Unicode.alphabeticRanges
  rcases hcases with ⟨hfirst, hlast⟩ | ⟨hfirst, hlast⟩
  · change 97 ≤ c.toNat at hfirst
    change c.toNat ≤ 102 at hlast
    rw [CodeRange.covers_cons_of_gt _ (by omega) (by omega),
      CodeRange.covers_cons_of_mem _ (by omega) (by omega)]
  · change 65 ≤ c.toNat at hfirst
    change c.toNat ≤ 70 at hlast
    rw [CodeRange.covers_cons_of_mem _ (by omega) (by omega)]

theorem goesOn_of_isHexDigit {c : Char} (h : isHexDigit c = true) : goesOn c = true := by
  by_cases hdigit : c.isDigit = true
  · exact goesOn_of_isDigit hdigit
  · apply goesOn_of_isAlphanumeric
    rw [isAlphanumeric, isAlphabetic_of_isHexDigit h (Bool.not_eq_true _ ▸ hdigit), Bool.true_or]

theorem goesOn_eq_false_of_isWhiteSpace {c : Char} (h : Unicode.isWhiteSpace c = true) :
    goesOn c = false := by
  rw [goesOn, isAlphanumeric, isNameChar_eq_false_of_isWhiteSpace h,
    isAlphabetic_eq_false_of_isWhiteSpace h, isNumber_eq_false_of_isWhiteSpace h]
  rfl

/-- Digits are no mark if no letter comes after them. -/
theorem Grammar.unmarked_digits {digits rest : List Char}
    (hdigits : ∀ c ∈ digits, c.isDigit = true) (hne : digits ≠ [])
    (hrest : NoneAhead goesOn rest) : Unmarked (digits ++ rest) := by
  intro c tail htext hmem
  match digits, hne with
  | [d], _ =>
      rw [List.cons_append, List.nil_append] at htext
      rw [(List.cons.inj htext).2, noneAhead_cons, goesOn_of_mem_markLetters c hmem] at hrest
      cases hrest
  | d :: e :: digits, _ =>
      obtain ⟨rfl, -⟩ := List.cons.inj (List.cons.inj htext).2
      have hdigit := hdigits e (by simp)
      rw [isDigit_eq_false_of_mem_markLetters hmem] at hdigit
      cases hdigit

/-! ## Lexemes -/

inductive Lexeme
  | name (chars : List Char) (hne : chars ≠ []) (hname : ∀ c ∈ chars, isNameChar c = true)
  | decimal (value : Nat) (hle : value ≤ unsignedMax)
  | unsigned (value : Nat) (hle : value ≤ unsignedMax)
  | hex (digits : List Char) (hne : digits ≠ []) (hhex : ∀ c ∈ digits, isHexDigit c = true)
      (hle : digitsValue 16 digits ≤ unsignedMax)
  | binary (digits : List Char) (hne : digits ≠ [])
      (hbinary : ∀ c ∈ digits, isBinaryDigit c = true) (hle : digits.length ≤ maxBinaryDigits)
  | signed (value : Int) (hge : -(signedMax : Int) ≤ value) (hle : value ≤ signedMax)
  | register (r : Register)
  | directive (d : Directive)
  | comma
  | colon

namespace Lexeme

instance : Inhabited Lexeme := ⟨.comma⟩

/-- The characters in front that are in no token. -/
def lead : Lexeme → List Char
  | unsigned _ _ => ['0', 'u']
  | hex _ _ _ _ => ['0', 'x']
  | binary _ _ _ _ => ['0', 'b']
  | signed _ _ _ => ['0', 'i']
  | register _ => ['$']
  | directive _ => ['%']
  | _ => []

/-- The characters that the token covers. -/
def word : Lexeme → List Char
  | name chars _ _ => chars
  | decimal value _ => (toString value).toList
  | unsigned value _ => (toString value).toList
  | hex digits _ _ _ => digits
  | binary digits _ _ _ => digits
  | signed value _ _ => (toString value).toList
  | register r => r.name.toList
  | directive d => d.spelling.toList
  | comma => [',']
  | colon => [':']

def text (l : Lexeme) : List Char :=
  l.lead ++ l.word

def body (table : InstructionTable) : Lexeme → Token.Body
  | name chars _ _ => table.meaning chars
  | decimal value _ => .unsigned value
  | unsigned value _ => .unsigned value
  | hex digits _ _ _ => .unsigned (digitsValue 16 digits)
  | binary digits _ _ _ => .unsigned (digitsValue 2 digits)
  | signed value _ _ => .signed value
  | register r => .register r.ordinal
  | directive d => .directive d
  | comma => .comma
  | colon => .colon

/-- Only a number without a mark is not read in every mode. -/
def ReadIn (mode : NumericMode) : Lexeme → Prop
  | decimal _ _ => mode = .unsigned
  | _ => True

end Lexeme

/-! ## Reading a lexeme -/

theorem Directive.isNameChar_of_mem_spelling (d : Directive) :
    ∀ c ∈ d.spelling.toList, isNameChar c = true := by
  apply List.all_eq_true.mp
  cases d <;> decide

namespace Register

theorem natCast_ordinal_ofDigit {digit : Char} (h : digit.isDigit = true) :
    ((ofDigit digit).ordinal : Int) = 6 + digitValue digit := by
  rw [ordinal_ofDigit h]
  rfl

/-- A register is written with a digit or with two letters of its own. -/
theorem written_cases (r : Register) :
    (∃ digit : Char, digit.isDigit = true ∧ r = ofDigit digit ∧ r.name.toList = ['r', digit]) ∨
      ∃ first second, named? first second = some r ∧ r.name.toList = ['r', first, second] := by
  cases r with
  | general index =>
      refine .inl ⟨Nat.digitChar index, ?_⟩
      revert index
      decide
  | sp => exact .inr ⟨'s', 'p', by decide⟩
  | fp => exact .inr ⟨'f', 'p', by decide⟩
  | ou => exact .inr ⟨'o', 'u', by decide⟩
  | fl => exact .inr ⟨'f', 'l', by decide⟩
  | ra => exact .inr ⟨'r', 'a', by decide⟩
  | rb => exact .inr ⟨'r', 'b', by decide⟩

end Register

section

variable {words : List Char → Token.Body} {mode : NumericMode} {rest : List Char}

theorem Register.segment (r : Register) (hrest : NoneAhead isAlphanumeric rest) :
    Segment words mode ['$'] r.name.toList rest (some (.register r.ordinal)) := by
  rcases r.written_cases with ⟨digit, hdigit, hr, hname⟩ | ⟨first, second, hr, hname⟩
  · rw [hname, hr, natCast_ordinal_ofDigit hdigit]
    exact .general hdigit hrest
  · rw [hname]
    exact .named rest hr

theorem Lexeme.segment {table : InstructionTable} (l : Lexeme) (hl : l.ReadIn mode)
    (hrest : NoneAhead goesOn rest) :
    Segment table.meaning mode l.lead l.word rest (some (l.body table)) := by
  have hdigit : NoneAhead Char.isDigit rest := hrest.mono goesOn_of_isDigit
  have hname : NoneAhead isNameChar rest := hrest.mono goesOn_of_isNameChar
  cases l with
  | name chars hne hall => exact .word ⟨hall, hname⟩ hne
  | decimal value hle =>
      have hnumber := Literal.decimal_toString hle hdigit
      have hmark : Mark 'u' .unsigned mode [] ((toString value).toList ++ rest) :=
        .mode hl (unmarked_digits hnumber.run.all hnumber.ne_nil hrest)
      have hsegment : Segment table.meaning mode [] _ rest _ := .unsigned hmark hnumber
      rw [digitsValue_toString] at hsegment
      exact hsegment
  | unsigned value hle =>
      have hnumber := Literal.decimal_toString hle hdigit
      have hsegment : Segment table.meaning mode ['0', 'u'] _ rest _ :=
        .unsigned (.letter _) hnumber
      rw [digitsValue_toString] at hsegment
      exact hsegment
  | hex digits hne hall hle => exact .hex ⟨hall, hrest.mono goesOn_of_isHexDigit⟩ hne hle
  | binary digits hne hall hle => exact .binary ⟨hall, hrest.mono goesOn_of_isBinaryDigit⟩ hne hle
  | signed value hge hle =>
      have hmagnitude : value.natAbs ≤ signedMax := by omega
      have hnumber := Literal.decimal_toString hmagnitude hdigit
      have hsegment : Segment table.meaning mode ['0', 'i'] _ rest _ :=
        .signed (decide (value < 0)) (.letter _) hnumber
      rw [digitsValue_toString, signedValue_natAbs, ← toList_toString_int] at hsegment
      exact hsegment
  | register r => exact r.segment (hrest.mono goesOn_of_isAlphanumeric)
  | directive d => exact .directive ⟨d.isNameChar_of_mem_spelling, hname⟩ rfl
  | comma => exact .comma rest
  | colon => exact .colon rest

end

end AsmLexer
