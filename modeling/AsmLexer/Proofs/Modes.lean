import AsmLexer.Proofs.Continuation
import AsmLexer.Proofs.Results
import AsmLexer.Proofs.Splitting
import Mathlib.Data.List.Forall2

/-!
# Numeric modes

The mode has a say in literals without a mark and in nothing else. Two modes read a text in
lockstep up to the first literal of this kind on which they cannot agree.
-/

namespace AsmLexer

open Text Grammar Position

namespace Grammar

/-- Digits, with a sign where the mode has signs, that are a literal without a mark. -/
inductive UnmarkedLiteral :
    (mode : NumericMode) → (word rest : List Char) → Token.Body → Prop
  | unsigned {digits rest : List Char} (htext : Unmarked (digits ++ rest))
      (hnumber : Literal.Decimal unsignedMax digits rest) :
      UnmarkedLiteral .unsigned digits rest (.unsigned (digitsValue 10 digits))
  | signed {digits rest : List Char} (negative : Bool)
      (htext : Unmarked (sign negative ++ digits ++ rest))
      (hnumber : Literal.Decimal signedMax digits rest) :
      UnmarkedLiteral .signed (sign negative ++ digits) rest
        (.signed (signedValue negative (digitsValue 10 digits)))

variable {words : List Char → Token.Body} {mode : NumericMode} {lead word rest : List Char}
  {body : Token.Body} {found : Option Token.Body}

theorem UnmarkedLiteral.segment (h : UnmarkedLiteral mode word rest body) :
    Segment words mode [] word rest (some body) := by
  cases h with
  | unsigned htext hnumber => exact .unsigned (.mode rfl htext) hnumber
  | signed negative htext hnumber => exact .signed negative (.mode rfl htext) hnumber

/-- Where one mode reads a literal without a mark, the float mode gives up. -/
theorem UnmarkedLiteral.floatAhead (h : UnmarkedLiteral mode word rest body) :
    FloatAhead .float [] (word ++ rest) := by
  have hopens {digits : List Char} (hdigits : ∀ c ∈ digits, c.isDigit = true)
      (hne : digits ≠ []) (negative : Bool) :
      ∃ c ∈ (sign negative ++ digits ++ rest).head?, OpensNumber c := by
    obtain ⟨c, cs, htext⟩ := List.exists_cons_of_ne_nil
      (List.append_ne_nil_of_left_ne_nil (List.append_ne_nil_of_right_ne_nil (sign negative) hne)
        rest)
    exact ⟨c, by simp [htext], Reading.opensNumber_of_append_eq hdigits hne htext⟩
  cases h with
  | unsigned htext hnumber =>
      exact ⟨.mode rfl htext, fun _ ↦ hopens hnumber.run.all hnumber.ne_nil false⟩
  | signed negative htext hnumber =>
      exact ⟨.mode rfl htext, fun _ ↦ hopens hnumber.run.all hnumber.ne_nil negative⟩

/-- A segment that is no literal without a mark is the same in all modes. -/
theorem Segment.unmarked_or (h : Segment words mode lead word rest found) :
    (lead = [] ∧ ∃ body, found = some body ∧ UnmarkedLiteral mode word rest body) ∨
      ∀ other, Segment words other lead word rest found := by
  cases h with
  | lineFeed => exact .inr fun _ ↦ .lineFeed _
  | blank _ hspace hline => exact .inr fun _ ↦ .blank _ hspace hline
  | comment hrun => exact .inr fun _ ↦ .comment hrun
  | comma => exact .inr fun _ ↦ .comma _
  | colon => exact .inr fun _ ↦ .colon _
  | directive hrun hd => exact .inr fun _ ↦ .directive hrun hd
  | word hrun hne => exact .inr fun _ ↦ .word hrun hne
  | general hdigit hrest => exact .inr fun _ ↦ .general hdigit hrest
  | named _ hr => exact .inr fun _ ↦ .named _ hr
  | hex hrun hne hle => exact .inr fun _ ↦ .hex hrun hne hle
  | binary hrun hne hle => exact .inr fun _ ↦ .binary hrun hne hle
  | unsigned hmark hnumber =>
      cases hmark with
      | letter => exact .inr fun _ ↦ .unsigned (.letter _) hnumber
      | mode hmode htext =>
          subst hmode
          exact .inl ⟨rfl, _, rfl, .unsigned htext hnumber⟩
  | signed negative hmark hnumber =>
      cases hmark with
      | letter => exact .inr fun _ ↦ .signed negative (.letter _) hnumber
      | mode hmode htext =>
          subst hmode
          exact .inl ⟨rfl, _, rfl, .signed negative htext hnumber⟩

theorem UnmarkedLiteral.not_forall {table : InstructionTable}
    (h : UnmarkedLiteral mode word rest body)
    (hall : ∀ other, Segment (Name.wordBody table) other [] word rest found) : False := by
  have hsegment := Reads.segment (hall .float)
  have hfloat : Reads (Name.wordBody table) .float ([] ++ word ++ rest) (.float 0) :=
    .float h.floatAhead
  have hreading := Reading.eq_of_reads hsegment hfloat
  have hcontinues := continues_segmentReading [] word found
  rw [hreading] at hcontinues
  cases hcontinues

end Grammar

/-! ## Tokens without a mark -/

/-- The token is a literal that stands in its text without a mark. -/
inductive Token.IsUnmarked (table : InstructionTable) (mode : NumericMode) (file : Handle)
    (text : List Char) : Token → Prop
  | intro {pieces : List (List Char)} {tokens : List Token} {word rest : List Char}
      {body : Token.Body}
      (hcut : Cut (Name.wordBody table) mode file .origin text pieces tokens (word ++ rest))
      (hliteral : UnmarkedLiteral mode word rest body) :
      IsUnmarked table mode file text (segmentToken file (origin.past pieces.flatten) [] word body)

/-- What two modes make of a text: the tokens `unmarked` may be of another kind, the others are
the same. -/
def Token.Recast (unmarked : Token → Prop) (change : Body → Body) (t u : Token) : Prop :=
  (unmarked t → u = ⟨change t.body, t.range⟩) ∧ (¬unmarked t → u = t)

section

variable {table : InstructionTable} {mode other : NumericMode} {file : Handle}
  {text middle rear : List Char} {front pieces : List (List Char)}
  {frontTokens tokens : List Token} {bad : Token.Body → List Char → Prop}
  {change : Token.Body → Token.Body}

theorem isUnmarked_segmentToken_iff {lead word rest : List Char} {body : Token.Body}
    (hcut : Cut (Name.wordBody table) mode file .origin text pieces tokens
      (lead ++ word ++ rest))
    (hhead : Segment (Name.wordBody table) mode lead word rest (some body)) :
    (segmentToken file (origin.past pieces.flatten) lead word body).IsUnmarked table mode file text
      ↔ lead = [] ∧ UnmarkedLiteral mode word rest body := by
  constructor
  · generalize ht : segmentToken file (origin.past pieces.flatten) lead word body = t
    rintro ⟨hcut', hliteral⟩
    have hoffset := congrArg (fun t ↦ t.range.start.offset) ht
    obtain ⟨rfl, rfl, rfl, rfl⟩ := hcut.segment_unique hhead hcut' hliteral.segment hoffset
    exact ⟨rfl, hliteral⟩
  · rintro ⟨rfl, hliteral⟩
    exact .intro hcut hliteral

/-- One segment on which two modes agree. -/
theorem exists_recast_segment {lead word rest : List Char} {found : Option Token.Body}
    (hgood : ∀ {word rest body}, UnmarkedLiteral mode word rest body → ¬bad body word →
      Segment (Name.wordBody table) other [] word rest (some (change body)))
    (hcut : Cut (Name.wordBody table) mode file .origin text pieces tokens (lead ++ word ++ rest))
    (hhead : Segment (Name.wordBody table) mode lead word rest found)
    (hnone : ∀ t ∈ segmentTokens file (origin.past pieces.flatten) lead word found,
      t.IsUnmarked table mode file text → ¬bad t.body (t.chars text)) :
    ∃ others, Segment (Name.wordBody table) other lead word rest others ∧
      List.Forall₂ (Token.Recast (Token.IsUnmarked table mode file text) change)
        (segmentTokens file (origin.past pieces.flatten) lead word found)
        (segmentTokens file (origin.past pieces.flatten) lead word others) := by
  rcases hhead.unmarked_or with ⟨rfl, body, rfl, hliteral⟩ | hall
  · have hunmarked := (isUnmarked_segmentToken_iff hcut hhead).mpr ⟨rfl, hliteral⟩
    have hchars := hcut.chars_segmentToken body
    have hword := hnone _ (List.mem_singleton.mpr rfl) hunmarked
    rw [← segmentToken, hchars] at hword
    refine ⟨some (change body), hgood hliteral hword, .cons ?_ .nil⟩
    exact ⟨fun _ ↦ rfl, fun hnot ↦ absurd hunmarked hnot⟩
  · refine ⟨found, hall other, ?_⟩
    cases found with
    | none => exact .nil
    | some body =>
        refine .cons ⟨?_, fun _ ↦ rfl⟩ .nil
        intro hunmarked
        obtain ⟨rfl, hliteral⟩ := (isUnmarked_segmentToken_iff hcut hhead).mp hunmarked
        exact (hliteral.not_forall hall).elim

/-- Up to the end of a cutting with no bad literal, two modes find the same, recast. -/
theorem Cut.exists_recast
    (hgood : ∀ {word rest body}, UnmarkedLiteral mode word rest body → ¬bad body word →
      Segment (Name.wordBody table) other [] word rest (some (change body)))
    (hfront : Cut (Name.wordBody table) mode file .origin text front frontTokens middle)
    (hcut : Cut (Name.wordBody table) mode file (origin.past front.flatten) middle pieces tokens
      rear)
    (hnone : ∀ t ∈ tokens, t.IsUnmarked table mode file text → ¬bad t.body (t.chars text)) :
    ∃ others, Cut (Name.wordBody table) other file (origin.past front.flatten) middle pieces
        others rear ∧
      List.Forall₂ (Token.Recast (Token.IsUnmarked table mode file text) change) tokens others := by
  generalize hp : origin.past front.flatten = p at hcut ⊢
  induction hcut generalizing front frontTokens with
  | nil => exact ⟨[], .nil .., .nil⟩
  | @cons p lead word rest rear found pieces tokens hhead htail ih =>
      subst hp
      obtain ⟨others, hother, hfirst⟩ := exists_recast_segment hgood hfront hhead
        fun t ht ↦ hnone t (List.mem_append_left _ ht)
      have hnext := hfront.trans (.cons hhead (.nil ..))
      have hplace : origin.past (front ++ [lead ++ word]).flatten =
          (origin.past front.flatten).past (lead ++ word) := by
        rw [List.flatten_append, past_append, List.flatten_singleton]
      obtain ⟨moreOthers, hmore, hrest⟩ :=
        ih hnext (fun t ht ↦ hnone t (List.mem_append_right _ ht)) hplace
      exact ⟨_, .cons hother hmore, List.rel_append hfirst hrest⟩

end

/-! ## The first token of a kind -/

def FirstIn (P : Token → Prop) (tokens : List Token) (t : Token) : Prop :=
  ∃ front back, tokens = front ++ t :: back ∧ P t ∧ ∀ u ∈ front, ¬P u

theorem forall_not_or_exists_firstIn (P : Token → Prop) (tokens : List Token) :
    (∀ t ∈ tokens, ¬P t) ∨ ∃ t, FirstIn P tokens t := by
  induction tokens with
  | nil => exact .inl fun t ht ↦ by cases ht
  | cons t tokens ih =>
      by_cases ht : P t
      · exact .inr ⟨t, [], tokens, rfl, ht, fun u hu ↦ by cases hu⟩
      · rcases ih with hnone | ⟨u, front, back, rfl, hu, hfront⟩
        · exact .inl (List.forall_mem_cons.mpr ⟨ht, hnone⟩)
        · exact .inr ⟨u, t :: front, back, rfl, hu, List.forall_mem_cons.mpr ⟨ht, hfront⟩⟩

section

variable {table : InstructionTable} {mode other : NumericMode} {file : Handle}
  {text : List Char} {tokens : List Token}

/-- Two modes that can agree on all literals give the same tokens, recast. -/
theorem exists_tokenize_recast (bad : Token.Body → List Char → Prop)
    (change : Token.Body → Token.Body)
    (hgood : ∀ {word rest body}, UnmarkedLiteral mode word rest body → ¬bad body word →
      Segment (Name.wordBody table) other [] word rest (some (change body)))
    (h : tokenize table mode file text = .tokens tokens)
    (hnone : ∀ t ∈ tokens, t.IsUnmarked table mode file text → ¬bad t.body (t.chars text)) :
    ∃ others, tokenize table other file text = .tokens others ∧
      List.Forall₂ (Token.Recast (Token.IsUnmarked table mode file text) change) tokens others := by
  obtain ⟨pieces, hcut⟩ := exists_cut_of_tokenize h
  obtain ⟨others, hothers, hrecast⟩ := Cut.exists_recast hgood (.nil ..) hcut hnone
  exact ⟨others, tokenize_eq_of_yields (.tokens hothers), hrecast⟩

/-- The other mode comes as far as the first literal on which the two cannot agree. -/
theorem exists_cut_of_firstIn (bad : Token.Body → List Char → Prop)
    (change : Token.Body → Token.Body)
    (hgood : ∀ {word rest body}, UnmarkedLiteral mode word rest body → ¬bad body word →
      Segment (Name.wordBody table) other [] word rest (some (change body)))
    (h : tokenize table mode file text = .tokens tokens) {t : Token}
    (hfirst : FirstIn
      (fun t ↦ t.IsUnmarked table mode file text ∧ bad t.body (t.chars text)) tokens t) :
    ∃ pieces others word rest,
      Cut (Name.wordBody table) other file .origin text pieces others (word ++ rest) ∧
        UnmarkedLiteral mode word rest t.body ∧ bad t.body word ∧
          t.range.start = origin.past pieces.flatten := by
  obtain ⟨front, back, rfl, ⟨hunmarked, hbad⟩, hfront⟩ := hfirst
  obtain ⟨pieces, hcut⟩ := exists_cut_of_tokenize h
  obtain ⟨frontPieces, lead, word, rest, body, hupto, hhead, rfl⟩ := hcut.split
  obtain ⟨rfl, hliteral⟩ := (isUnmarked_segmentToken_iff hupto hhead).mp hunmarked
  rw [hupto.chars_segmentToken body] at hbad
  obtain ⟨others, hothers, -⟩ := Cut.exists_recast hgood (.nil ..) hupto
    fun u hu hu' hbad' ↦ hfront u hu ⟨hu', hbad'⟩
  exact ⟨frontPieces, others, word, rest, hothers, hliteral, hbad, rfl⟩

end

/-! ## Three modes -/

namespace Token.Body

def asSigned : Body → Body
  | .unsigned value => .signed value
  | body => body

def asUnsigned : Body → Body
  | .signed value => .unsigned value
  | body => body

end Token.Body

namespace Grammar.UnmarkedLiteral

variable {words : List Char → Token.Body} {word rest : List Char} {body : Token.Body}

theorem segment_signed (h : UnmarkedLiteral .unsigned word rest body)
    (hsmall : ¬∃ value, body = .unsigned value ∧ 2 ^ 63 - 1 < value) :
    Segment words .signed [] word rest (some body.asSigned) := by
  have hmax : (signedMax : Int) = 2 ^ 63 - 1 := rfl
  cases h with
  | unsigned htext hnumber =>
      have hle : digitsValue 10 word ≤ signedMax := by
        apply Nat.not_lt.mp
        intro hlt
        exact hsmall ⟨_, rfl, by omega⟩
      exact .signed false (.mode rfl htext) ⟨hnumber.run, hnumber.ne_nil, hle⟩

/-- The signed mode gives up at the digit that is too much for it. -/
theorem exists_fault_signed (h : UnmarkedLiteral .unsigned word rest body)
    (hlarge : ∃ value, body = .unsigned value ∧ 2 ^ 63 - 1 < value) :
    ∃ span behind, word ++ rest = span ++ behind ∧
      Fault .signed .signedLiteral [] span behind := by
  have hmax : (signedMax : Int) = 2 ^ 63 - 1 := rfl
  obtain ⟨value, hbody, hlt⟩ := hlarge
  cases h with
  | unsigned htext hnumber =>
      obtain rfl := Token.Body.unsigned.inj hbody
      rcases Literal.decimal_cases signedMax (word ++ rest) with
        hnone | ⟨digits, behind, hsplit, hdecimal | hpast⟩
      · obtain ⟨c, word, rfl⟩ := List.exists_cons_of_ne_nil hnumber.ne_nil
        have hc : c.isDigit = false := noneAhead_cons.mp hnone
        simp [hnumber.run.all c List.mem_cons_self] at hc
      · have hdigits : word = digits := by
          rw [← hnumber.run.takeWhile_append, hsplit, hdecimal.run.takeWhile_append]
        have hle := hdecimal.le
        rw [← hdigits] at hle
        omega
      · refine ⟨digits, behind, hsplit, .signed false (.mode rfl ?_) hpast⟩
        rw [hsplit] at htext
        exact htext

theorem segment_unsigned (h : UnmarkedLiteral .signed word rest body)
    (hminus : ¬word.head? = some '-') :
    Segment words .unsigned [] word rest (some body.asUnsigned) := by
  cases h with
  | signed negative htext hnumber =>
      cases negative with
      | true => exact absurd rfl hminus
      | false =>
          have hle := Nat.le_trans hnumber.le (by decide : signedMax ≤ unsignedMax)
          exact .unsigned (.mode rfl htext) ⟨hnumber.run, hnumber.ne_nil, hle⟩

end Grammar.UnmarkedLiteral

theorem unexpected_minus : Unexpected .unsigned '-' :=
  ⟨by decide, by decide, by decide, by decide, fun _ ↦ rfl⟩

section

variable {table : InstructionTable} {mode : NumericMode} {file : Handle} {text : List Char}
  {tokens : List Token} {t : Token}

theorem tokenize_signed_eq_error (h : tokenize table .unsigned file text = .tokens tokens)
    (hfirst : FirstIn (fun t ↦ t.IsUnmarked table .unsigned file text ∧
      ∃ value, t.body = .unsigned value ∧ 2 ^ 63 - 1 < value) tokens t) :
    ∃ stop, tokenize table .signed file text =
      .error (.over .signedLiteral ⟨t.range.start, stop, file⟩) := by
  obtain ⟨pieces, others, word, rest, hcut, hliteral, hlarge, hstart⟩ := exists_cut_of_firstIn
    (fun body _ ↦ ∃ value, body = .unsigned value ∧ 2 ^ 63 - 1 < value) Token.Body.asSigned
    UnmarkedLiteral.segment_signed h hfirst
  obtain ⟨span, behind, hsplit, hfault⟩ := hliteral.exists_fault_signed hlarge
  rw [hsplit] at hcut
  rw [hstart]
  exact ⟨_, tokenize_eq_of_yields (.error hcut (.fault hfault))⟩

theorem tokenize_unsigned_eq_error (h : tokenize table .signed file text = .tokens tokens)
    (hfirst : FirstIn (fun t ↦ t.IsUnmarked table .signed file text ∧
      (t.chars text).head? = some '-') tokens t) :
    tokenize table .unsigned file text = .error (.unexpected "-" t.range.start) := by
  obtain ⟨pieces, others, word, rest, hcut, hliteral, hminus, hstart⟩ := exists_cut_of_firstIn
    (fun _ word ↦ word.head? = some '-') Token.Body.asUnsigned
    UnmarkedLiteral.segment_unsigned h hfirst
  obtain ⟨digits, rfl⟩ := List.head?_eq_some_iff.mp hminus
  rw [hstart]
  exact tokenize_eq_of_yields (.error hcut (.unexpected _ unexpected_minus))

/-- The float mode agrees with another one on no literal without a mark. -/
theorem segment_float_of_false {word rest : List Char} {body : Token.Body}
    (_ : UnmarkedLiteral mode word rest body) (hfalse : ¬True) :
    Segment (Name.wordBody table) .float [] word rest (some (id body)) :=
  absurd trivial hfalse

theorem tokenize_float_eq_unsupported (h : tokenize table mode file text = .tokens tokens)
    (hfirst : FirstIn (Token.IsUnmarked table mode file text) tokens t) :
    tokenize table .float file text = .unsupported (.floatLiteral t.range.start) := by
  have hfirst' : FirstIn (fun t ↦ t.IsUnmarked table mode file text ∧ True) tokens t := by
    simpa only [and_true] using hfirst
  obtain ⟨pieces, others, word, rest, hcut, hliteral, -, hstart⟩ :=
    exists_cut_of_firstIn (fun _ _ ↦ True) id segment_float_of_false h hfirst'
  rw [hstart]
  exact tokenize_eq_of_yields (@Yields.unsupported _ _ _ _ _ _ [] _ hcut hliteral.floatAhead)

theorem eq_of_recast {unmarked : Token → Prop} {change : Token.Body → Token.Body}
    {others : List Token} (h : List.Forall₂ (Token.Recast unmarked change) tokens others)
    (hnone : ∀ t ∈ tokens, ¬unmarked t) : others = tokens := by
  induction h with
  | nil => rfl
  | @cons t u tokens others hfirst _ ih =>
      have hu := hfirst.2 (hnone t List.mem_cons_self)
      have htail := ih fun v hv ↦ hnone v (List.mem_cons_of_mem t hv)
      rw [hu, htail]

theorem tokenize_float_eq_tokens (h : tokenize table mode file text = .tokens tokens)
    (hnone : ∀ t ∈ tokens, ¬t.IsUnmarked table mode file text) :
    tokenize table .float file text = .tokens tokens := by
  obtain ⟨others, hothers, hrecast⟩ := exists_tokenize_recast (fun _ _ ↦ True) id
    segment_float_of_false h fun t ht hunmarked ↦ absurd hunmarked (hnone t ht)
  rw [hothers, eq_of_recast hrecast hnone]

end

/-- Modes differ on literals without a mark and on nothing else. From the unsigned mode, the signed
one differs in their kind up to the first that is too large, and the float mode stops at the first.
From the signed mode, the unsigned one differs in their kind up to the first with a sign. -/
theorem tokenize_modes (table : InstructionTable) (file : Handle) (text : List Char) :
    (∀ tokens, tokenize table .unsigned file text = .tokens tokens →
      ((∀ t ∈ tokens, t.IsUnmarked table .unsigned file text →
          ∀ value, t.body = .unsigned value → value ≤ 2 ^ 63 - 1) ∧
        (∃ others, tokenize table .signed file text = .tokens others ∧
          List.Forall₂ (Token.Recast (Token.IsUnmarked table .unsigned file text)
            Token.Body.asSigned) tokens others) ∨
      ∃ t, FirstIn (fun t ↦ t.IsUnmarked table .unsigned file text ∧
          ∃ value, t.body = .unsigned value ∧ 2 ^ 63 - 1 < value) tokens t ∧
        ∃ stop, tokenize table .signed file text =
          .error (.over .signedLiteral ⟨t.range.start, stop, file⟩)) ∧
      ((∀ t ∈ tokens, ¬t.IsUnmarked table .unsigned file text) ∧
        tokenize table .float file text = .tokens tokens ∨
      ∃ t, FirstIn (Token.IsUnmarked table .unsigned file text) tokens t ∧
        tokenize table .float file text = .unsupported (.floatLiteral t.range.start))) ∧
    ∀ tokens, tokenize table .signed file text = .tokens tokens →
      (∀ t ∈ tokens, t.IsUnmarked table .signed file text →
          ¬(t.chars text).head? = some '-') ∧
        (∃ others, tokenize table .unsigned file text = .tokens others ∧
          List.Forall₂ (Token.Recast (Token.IsUnmarked table .signed file text)
            Token.Body.asUnsigned) tokens others) ∨
      ∃ t, FirstIn (fun t ↦ t.IsUnmarked table .signed file text ∧
          (t.chars text).head? = some '-') tokens t ∧
        tokenize table .unsigned file text = .error (.unexpected "-" t.range.start) := by
  refine ⟨?_, ?_⟩
  · intro tokens h
    refine ⟨?_, ?_⟩
    · rcases forall_not_or_exists_firstIn (fun t ↦ t.IsUnmarked table .unsigned file text ∧
          ∃ value, t.body = .unsigned value ∧ 2 ^ 63 - 1 < value) tokens with
        hnone | ⟨t, hfirst⟩
      · refine .inl ⟨?_, ?_⟩
        · intro t ht hunmarked value hbody
          exact Int.not_lt.mp fun hlarge ↦ hnone t ht ⟨hunmarked, value, hbody, hlarge⟩
        · exact exists_tokenize_recast
            (fun body _ ↦ ∃ value, body = .unsigned value ∧ 2 ^ 63 - 1 < value)
            Token.Body.asSigned UnmarkedLiteral.segment_signed h
            fun t ht hunmarked hlarge ↦ hnone t ht ⟨hunmarked, hlarge⟩
      · exact .inr ⟨t, hfirst, tokenize_signed_eq_error h hfirst⟩
    · rcases forall_not_or_exists_firstIn (Token.IsUnmarked table .unsigned file text) tokens with
        hnone | ⟨t, hfirst⟩
      · exact .inl ⟨hnone, tokenize_float_eq_tokens h hnone⟩
      · exact .inr ⟨t, hfirst, tokenize_float_eq_unsupported h hfirst⟩
  · intro tokens h
    rcases forall_not_or_exists_firstIn (fun t ↦ t.IsUnmarked table .signed file text ∧
        (t.chars text).head? = some '-') tokens with hnone | ⟨t, hfirst⟩
    · refine .inl ⟨fun t ht hunmarked hminus ↦ hnone t ht ⟨hunmarked, hminus⟩, ?_⟩
      exact exists_tokenize_recast (fun _ word ↦ word.head? = some '-') Token.Body.asUnsigned
        UnmarkedLiteral.segment_unsigned h
        fun t ht hunmarked hminus ↦ hnone t ht ⟨hunmarked, hminus⟩
    · exact .inr ⟨t, hfirst, tokenize_unsigned_eq_error h hfirst⟩

/-- The second number is too large for the signed mode by one. -/
theorem tokenize_modes_large :
    ∃ tokens t, tokenize .standard .unsigned 0 "7 9223372036854775808".toList = .tokens tokens ∧
      FirstIn (fun t ↦ t.IsUnmarked .standard .unsigned 0 "7 9223372036854775808".toList ∧
        ∃ value, t.body = .unsigned value ∧ 2 ^ 63 - 1 < value) tokens t ∧
      ∃ stop, tokenize .standard .signed 0 "7 9223372036854775808".toList =
        .error (.over .signedLiteral ⟨t.range.start, stop, 0⟩) := by
  have htokens : tokenize .standard .unsigned 0 "7 9223372036854775808".toList = .tokens
      [⟨.unsigned 7, ⟨⟨0, 0, 0⟩, ⟨1, 0, 1⟩, 0⟩⟩,
        ⟨.unsigned 9223372036854775808, ⟨⟨2, 0, 2⟩, ⟨21, 0, 21⟩, 0⟩⟩] := by
    decide +kernel
  have herror : tokenize .standard .signed 0 "7 9223372036854775808".toList = .error
      (.over .signedLiteral ⟨⟨2, 0, 2⟩, ⟨21, 0, 21⟩, 0⟩) := by
    decide +kernel
  have hmodes := tokenize_modes .standard 0 "7 9223372036854775808".toList
  rcases (hmodes.1 _ htokens).1 with ⟨-, others, hothers, -⟩ | ⟨t, hfirst, hstop⟩
  · rw [herror] at hothers
    cases hothers
  · exact ⟨_, t, htokens, hfirst, hstop⟩

/-- A zero that ends a number makes no mark, so the last literal is one without a mark. -/
example : tokenize .standard .signed 0 "10x5".toList =
    .tokens [⟨.signed 10, ⟨⟨0, 0, 0⟩, ⟨2, 0, 2⟩, 0⟩⟩, ⟨.identifier, ⟨⟨2, 0, 2⟩, ⟨3, 0, 3⟩, 0⟩⟩,
      ⟨.signed 5, ⟨⟨3, 0, 3⟩, ⟨4, 0, 4⟩, 0⟩⟩] := by
  decide +kernel

end AsmLexer
