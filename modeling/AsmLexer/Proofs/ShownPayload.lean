import AsmLexer.Proofs.CanonicalNumeral
import AsmLexer.Proofs.RadixLiteral
import AsmLexer.Proofs.Relexing
import AsmLexer.Proofs.Reprinting

/-!
# What tokens show

A register is shown by what stands behind its mark, and an opcode by the word that it is. A literal
is shown by the canonical numeral of the number that its characters spell in the base of its mark.
Whatever text the tokens are from, what they stand for can be shown.
-/

namespace AsmLexer

open Text Grammar

theorem Register.name_ofDigit {digit : Char} (h : digit.isDigit = true) :
    (ofDigit digit).name = String.ofList ['r', digit] := by
  have hindex : (digit.toNat - '0'.toNat) % 10 = digitValue digit := by
    have hlt := digitValue_lt_ten h
    rw [digitValue_of_isDigit h] at hlt ⊢
    exact Nat.mod_eq_of_lt hlt
  have hnumeral : toString (digitValue digit) = String.ofList [digit] := by
    apply String.toList_injective
    rw [toList_toString, Nat.toDigits_of_lt_base (digitValue_lt_ten h), digitChar_digitValue h,
      String.toList_ofList]
  rw [ofDigit, name, Fin.val_ofNat, hindex, hnumeral, ← String.ofList_append,
    List.singleton_append]

namespace Literal

/-- The characters are digits of the base, with a minus in front of them or not, and the number is
theirs. -/
inductive Spells (base : Nat) : List Char → Int → Prop
  | intro {digits : List Char} (negative : Bool) (hne : digits ≠ [])
      (hdigits : ∀ c ∈ digits, isHexDigit c = true ∧ digitValue c < base) :
      Spells base (sign negative ++ digits) (signedValue negative (digitsValue base digits))

end Literal

namespace Token

/-- What a number is shown by: the one canonical numeral of the number that the lexeme spells. -/
structure ShowsNumber (base : Nat) (lexeme : String) (value : Int) (text : String) : Prop where
  spells : Literal.Spells base lexeme.toList value
  canonical : ∀ chars, Canonical chars value ↔ chars = text.toList

/-- What a token with this mark and this lexeme is shown by, if by anything. -/
inductive Shows (mark : List Char) (lexeme : String) : Body → Option String → Prop
  | comma : Shows mark lexeme .comma none
  | colon : Shows mark lexeme .colon none
  | directive (d : Directive) : Shows mark lexeme (.directive d) none
  | identifier : Shows mark lexeme .identifier none
  | register (ordinal : Int) : Shows mark lexeme (.register ordinal) (some ("$" ++ lexeme))
  | opcode {code : Int} (hknown : InstructionTable.standard.mnemonic? code = some lexeme) :
      Shows mark lexeme (.opcode code) (some lexeme)
  | unsigned {value : Int} {text : String} (s : Literal.Spelling) (hmark : mark = s.mark)
      (h : ShowsNumber s.base lexeme value text) : Shows mark lexeme (.unsigned value) (some text)
  | signed {value : Int} {text : String} (hmark : mark = [] ∨ mark = ['0', 'i'])
      (h : ShowsNumber 10 lexeme value text) : Shows mark lexeme (.signed value) (some text)

end Token

namespace Literal

theorem spells_of_digits {base : Nat} {digits : List Char} (hne : digits ≠ [])
    (hdigits : ∀ c ∈ digits, isHexDigit c = true ∧ digitValue c < base) :
    Spells base digits (digitsValue base digits) :=
  .intro false hne hdigits

theorem isHexDigit_of_isDigit {c : Char} (h : c.isDigit = true) : isHexDigit c = true := by
  rw [isHexDigit, h, Bool.true_or, Bool.true_or]

theorem isHexDigit_of_isBinaryDigit {c : Char} (h : isBinaryDigit c = true) :
    isHexDigit c = true := by
  simp only [isBinaryDigit, Bool.or_eq_true, beq_iff_eq] at h
  rcases h with rfl | rfl <;> decide

theorem Decimal.isDigitOf {limit : Nat} {digits rest : List Char} (h : Decimal limit digits rest) :
    ∀ c ∈ digits, isHexDigit c = true ∧ digitValue c < 10 :=
  fun c hc ↦ ⟨isHexDigit_of_isDigit (h.run.all c hc), digitValue_lt_ten (h.run.all c hc)⟩

end Literal

theorem Grammar.Mark.eq_or_eq {letter : Char} {kind mode : NumericMode} {mark text : List Char}
    (h : Mark letter kind mode mark text) : mark = [] ∨ mark = ['0', letter] := by
  cases h with
  | letter => exact .inr rfl
  | mode => exact .inl rfl

namespace Token

section

variable {mode : NumericMode} {lead word rest : List Char} {body : Token.Body}

theorem showsNumber_toString {base : Nat} {chars : List Char} {value : Int}
    (h : Literal.Spells base chars value) :
    ShowsNumber base (String.ofList chars) value (toString value) := by
  refine ⟨?_, fun _ ↦ canonical_iff⟩
  rwa [String.toList_ofList]

theorem shows_meaning (word : List Char) (range : Range) :
    ∃ shown, (⟨InstructionTable.standard.meaning word, range⟩ : Token).payload .standard =
        .ok shown ∧
      Shows [] (String.ofList word) (InstructionTable.standard.meaning word) shown := by
  rw [InstructionTable.meaning]
  cases hopcode : InstructionTable.standard.opcode? (String.ofList word) with
  | none => exact ⟨none, rfl, .identifier⟩
  | some code =>
      have hknown := InstructionTable.mnemonic?_of_opcode? InstructionTable.nodup_standard
        hopcode
      refine ⟨_, ?_, .opcode hknown⟩
      simp only [payload, hknown]
      rfl

/-- What stands for a register is shown by its name, which is written behind the mark. -/
theorem shows_register {r : Register} (hname : r.name = String.ofList word) (range : Range) :
    ∃ shown, (⟨.register r.ordinal, range⟩ : Token).payload .standard = .ok shown ∧
      Shows ['$'] (String.ofList word) (.register r.ordinal) shown := by
  refine ⟨some ("$" ++ String.ofList word), ?_, .register _⟩
  simp only [payload, r.nameOfOrdinal_ordinal, hname]
  rfl

theorem shows_of_segment
    (h : Segment (Name.wordBody .standard) mode lead word rest (some body)) (range : Range) :
    ∃ shown, (⟨body, range⟩ : Token).payload .standard = .ok shown ∧
      Shows lead (String.ofList word) body shown := by
  rw [InstructionTable.wordBody_standard] at h
  cases h with
  | comma => exact ⟨none, rfl, .comma⟩
  | colon => exact ⟨none, rfl, .colon⟩
  | directive => exact ⟨none, rfl, .directive _⟩
  | word => exact shows_meaning word range
  | @general digit _ hdigit =>
      rw [← Register.natCast_ordinal_ofDigit hdigit]
      exact shows_register (Register.name_ofDigit hdigit) range
  | named _ hr =>
      apply shows_register
      rw [← Register.name_of_named? hr, String.ofList_toList]
  | hex hrun hne =>
      have hspells := Literal.spells_of_digits hne fun c hc ↦
        ⟨hrun.all c hc, digitValue_lt_sixteen (hrun.all c hc)⟩
      exact ⟨_, rfl, .unsigned .hex rfl (showsNumber_toString hspells)⟩
  | binary hrun hne =>
      have hspells := Literal.spells_of_digits hne fun c hc ↦
        ⟨Literal.isHexDigit_of_isBinaryDigit (hrun.all c hc), digitValue_lt_two (hrun.all c hc)⟩
      exact ⟨_, rfl, .unsigned .binary rfl (showsNumber_toString hspells)⟩
  | unsigned hmark hnumber =>
      have hshows := showsNumber_toString
        (Literal.spells_of_digits hnumber.ne_nil hnumber.isDigitOf)
      refine ⟨_, rfl, ?_⟩
      rcases hmark.eq_or_eq with rfl | rfl
      · exact .unsigned .plain rfl hshows
      · exact .unsigned .decimal rfl hshows
  | signed negative hmark hnumber =>
      have hspells := Literal.Spells.intro negative hnumber.ne_nil hnumber.isDigitOf
      exact ⟨_, rfl, .signed hmark.eq_or_eq (showsNumber_toString hspells)⟩

theorem Shows.isSome_iff {mark : List Char} {lexeme : String} {shown : Option String} {t : Token}
    (h : Shows mark lexeme t.body shown) : shown.isSome = true ↔ t.kind ∈ Kind.numbered := by
  obtain ⟨body, range⟩ := t
  cases h <;> simp [kind, Body.kind, Kind.numbered]

end

end Token

namespace Lexer

/-- A step of the session adds the token, and `mark` is what stands between the beginning of this
step and the token. -/
def Finds (l : Lexer) (text : List Char) (t : Token) (mark : List Char) : Prop :=
  ∃ k m, Reaches l k ∧ k.Steps m ∧ m.store.toList = k.store.toList ++ [t] ∧
    mark = slice text k.position.offset t.range.start.offset

variable {l m : Lexer} {text lead word rest : List Char} {body : Token.Body} {t : Token}

theorem finds_of_segment (hreach : Reaches l m) (hstands : StandsIn text m)
    (h : Segment (Name.wordBody m.table) m.mode lead word rest (some body))
    (hrest : m.rest = lead ++ word ++ rest) :
    l.Finds text (segmentToken m.file m.position lead word body) lead := by
  rw [List.append_assoc] at hrest
  have hmark := hstands.slice_past hrest
  rw [← List.append_assoc] at hrest
  exact ⟨m, _, hreach, (steps_segment_iff h hrest).mpr rfl, toList_store_advance .., hmark.symm⟩

/-- Every token that is added has been found by a step. -/
theorem exists_finds (hreach : Reaches l m) (hstands : StandsIn text l)
    (hempty : l.store.toList = []) : ∀ t ∈ m.store.toList, ∃ mark, l.Finds text t mark := by
  refine hreach.forall_token (Q := fun t ↦ ∃ mark, l.Finds text t mark) ?_ ?_
  · rw [hempty]
    exact List.forall_mem_nil _
  · intro k lead word rest found hk h hrest t ht
    cases found with
    | none => cases ht
    | some body =>
        obtain rfl := List.mem_singleton.mp ht
        exact ⟨lead, finds_of_segment hk (hstands.of_reaches hk) h hrest⟩

/-- The characters that a token covers, where the step is made that adds it. -/
theorem StandsIn.chars_segmentToken {text : List Char} (h : StandsIn text l)
    (hrest : l.rest = lead ++ word ++ rest) (body : Token.Body) :
    (segmentToken l.file l.position lead word body).chars text = word := by
  obtain ⟨front, rfl, hposition⟩ := h
  rw [hposition, hrest]
  exact AsmLexer.chars_segmentToken l.file front lead word rest body

/-- A token that is found covers its segment, and the mark is what stands in front of it. -/
theorem Finds.exists_segment {mode : NumericMode} {file : Handle} {source : SourceFile}
    {mark : List Char} (h : (start .standard mode file source.chars).Finds source.chars t mark) :
    ∃ word rest, Segment (Name.wordBody .standard) mode mark word rest (some t.body) ∧
      t.lexeme source = String.ofList word := by
  obtain ⟨k, m, hreach, hstep, hstored, rfl⟩ := h
  have htable : k.table = .standard := hreach.table_eq
  have hmode : k.mode = mode := hreach.mode_eq
  have hstands := (standsIn_start .standard mode file source.chars).of_reaches hreach
  obtain ⟨lead, word, rest, body, hsegment, hrest, rfl, -⟩ := hstep.exists_segment hstored
  rw [htable, hmode] at hsegment
  have hsplit : k.rest = lead ++ (word ++ rest) := by
    rw [hrest, List.append_assoc]
  have hmark : slice source.chars k.position.offset (k.position.past lead).offset = lead :=
    hstands.slice_past hsplit
  refine ⟨word, rest, ?_, congrArg String.ofList (hstands.chars_segmentToken hrest body)⟩
  rw [segmentToken, hmark]
  exact hsegment

theorem Finds.shows {mode : NumericMode} {file : Handle} {source : SourceFile}
    {mark : List Char} (h : (start .standard mode file source.chars).Finds source.chars t mark) :
    ∃ shown, t.payload .standard = .ok shown ∧
      Token.Shows mark (t.lexeme source) t.body shown := by
  obtain ⟨word, rest, hsegment, hlexeme⟩ := h.exists_segment
  rw [hlexeme]
  exact Token.shows_of_segment hsegment t.range

/-- Whatever text a token is from, what it stands for can be shown. If it is a register, this is
what was read with its mark, if it is an opcode, the word itself, and if it is a literal, the
canonical numeral of the number that it spells in the base of its mark. -/
theorem payload_shows (mode : NumericMode) (file : Handle) (source : SourceFile) (n : Nat)
    (t : Token) (ht : t ∈ ((start .standard mode file source.chars).runs n).store.toList) :
    ∃ shown, t.payload .standard = .ok shown ∧
      (shown.isSome = true ↔ t.kind ∈ Token.Kind.numbered) ∧
      (∃ mark, (start .standard mode file source.chars).Finds source.chars t mark) ∧
        ∀ mark, (start .standard mode file source.chars).Finds source.chars t mark →
          Token.Shows mark (t.lexeme source) t.body shown := by
  have hstands := standsIn_start .standard mode file source.chars
  have hreach := (start .standard mode file source.chars).reaches_runs n
  obtain ⟨mark, hfinds⟩ := exists_finds hreach hstands rfl t ht
  obtain ⟨shown, hpayload, hshows⟩ := hfinds.shows
  refine ⟨shown, hpayload, hshows.isSome_iff, ⟨mark, hfinds⟩, ?_⟩
  intro other hother
  obtain ⟨shown', hpayload', hshows'⟩ := hother.shows
  obtain rfl : shown = shown' := Except.ok.inj (hpayload.symm.trans hpayload')
  exact hshows'

/-- There is a zero in front of the hexadecimal digits, and their letters are of both cases. -/
theorem payload_shows_hex :
    ∃ t ∈ ((start .standard .signed 0 "0x0fF".toList).runs 1).store.toList,
      t.payload .standard = .ok (some "255") ∧
        Token.ShowsNumber 16 (t.lexeme ⟨0, "main.vasm", "0x0fF"⟩) 255 "255" := by
  have hstep : (start .standard .signed 0 "0x0fF".toList).Finds "0x0fF".toList
      (segmentToken 0 .origin ['0', 'x'] ['0', 'f', 'F'] (.unsigned 255)) ['0', 'x'] :=
    finds_of_segment .refl (standsIn_start ..)
      (.hex ⟨List.all_eq_true.mp (by decide), noneAhead_nil⟩ (by decide) (by decide)) rfl
  have hmem : segmentToken 0 .origin ['0', 'x'] ['0', 'f', 'F'] (.unsigned 255) ∈
      ((start .standard .signed 0 "0x0fF".toList).runs 1).store.toList := by
    decide +kernel
  obtain ⟨shown, hpayload, -, -, hshows⟩ :=
    payload_shows .signed 0 ⟨0, "main.vasm", "0x0fF"⟩ 1 _ hmem
  obtain rfl : some "255" = shown := Except.ok.inj (Eq.trans (by decide +kernel) hpayload)
  refine ⟨_, hmem, hpayload, ?_⟩
  cases hshows _ hstep with
  | unsigned s hmark h =>
      cases s with
      | hex => exact h
      | _ => cases hmark

end Lexer

end AsmLexer
