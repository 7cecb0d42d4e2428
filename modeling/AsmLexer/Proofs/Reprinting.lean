import AsmLexer.Proofs.Printing
import AsmLexer.Proofs.TokenLines
import Mathlib.Data.List.Nodup
import Mathlib.Tactic.Choose

/-!
# Printed tokens

The tokens of a text can be printed from what they stand for: literals are written with a mark and
without leading zeros, mnemonics and registers by the name that their number is shown with. Such a
text is the same in every mode, and tokenizing it gives back what was printed.
-/

namespace AsmLexer

open Text Grammar Position

/-- A token as it is written again: literals with a mark, punctuation, directives and names as they
stand in the source, the others as they are shown. -/
def Token.printed (table : InstructionTable) (source : SourceFile) (t : Token) :
    Except LookupFault String :=
  (t.payload table).map fun payload ↦
    match t.kind with
    | .comma => ","
    | .colon => ":"
    | .directive _ => "%" ++ t.lexeme source
    | .identifier => t.lexeme source
    | .unsigned => "0u" ++ payload.getD ""
    | .signed => "0i" ++ payload.getD ""
    | _ => payload.getD ""

/-! ## Opcodes and mnemonics -/

/-- Where no opcode is given twice, a mnemonic is found again by its opcode. -/
theorem InstructionTable.mnemonic?_of_opcode? {table : InstructionTable}
    (htable : (table.entries.map Prod.snd).Nodup) {mnemonic : String} {code : Nat}
    (h : table.opcode? mnemonic = some code) :
    table.mnemonic? ((code : Int) : Rat) = some mnemonic := by
  rw [mnemonic?_eq_some_iff htable]
  exact ⟨code, Rat.intCast_natCast code, mem_of_opcode?_eq_some h⟩

theorem InstructionTable.nodup_standard : (standard.entries.map Prod.snd).Nodup := by
  decide

/-! ## The lexeme of a token -/

/-- In every mode the lexeme is read as what the token stands for, and it is written as the token
is printed. -/
structure Lexeme.Reprints (table : InstructionTable) (source : SourceFile) (t : Token)
    (l : Lexeme) : Prop where
  readIn : ∀ mode, l.ReadIn mode
  body : l.body table = t.body
  printed : t.printed table source = .ok (String.ofList l.text)

section

variable {table : InstructionTable} {source : SourceFile} {t : Token}

namespace Lexeme

theorem Reprints.of_printed {l : Lexeme} {shown : String} (hread : ∀ mode, l.ReadIn mode)
    (hbody : l.body table = t.body) (hword : l.word = shown.toList)
    (hprinted : t.printed table source = .ok (String.ofList l.lead ++ shown)) :
    l.Reprints table source t := by
  refine ⟨hread, hbody, ?_⟩
  rw [hprinted, text, hword, String.ofList_append, String.ofList_toList]

theorem reprints_unsigned {value : Nat} (hle : value ≤ unsignedMax)
    (hbody : t.body = .unsigned value) : (unsigned value hle).Reprints table source t := by
  refine Reprints.of_printed (fun _ ↦ trivial) hbody.symm rfl ?_
  simp only [Token.printed, Token.payload, Token.kind, hbody]
  rfl

theorem reprints_signed {value : Int} (hge : -(signedMax : Int) ≤ value) (hle : value ≤ signedMax)
    (hbody : t.body = .signed value) : (signed value hge hle).Reprints table source t := by
  refine Reprints.of_printed (fun _ ↦ trivial) hbody.symm rfl ?_
  simp only [Token.printed, Token.payload, Token.kind, hbody]
  rfl

theorem reprints_register {r : Register} (hbody : t.body = .register r.ordinal) :
    (register r).Reprints table source t := by
  refine Reprints.of_printed (fun _ ↦ trivial) hbody.symm rfl ?_
  simp only [Token.printed, Token.payload, Token.kind, hbody, r.nameOfOrdinal_ordinal]
  rfl

theorem reprints_directive {d : Directive} (hbody : t.body = .directive d)
    (hlexeme : t.lexeme source = d.spelling) : (directive d).Reprints table source t := by
  refine Reprints.of_printed (fun _ ↦ trivial) hbody.symm rfl ?_
  rw [← hlexeme]
  simp only [Token.printed, Token.payload, Token.kind, hbody]
  rfl

theorem reprints_name {chars : List Char} (htable : (table.entries.map Prod.snd).Nodup)
    (hne : chars ≠ []) (hname : ∀ c ∈ chars, isNameChar c = true)
    (hbody : t.body = table.meaning chars) (hlexeme : t.lexeme source = String.ofList chars) :
    (name chars hne hname).Reprints table source t := by
  refine ⟨fun _ ↦ trivial, hbody.symm, ?_⟩
  change t.printed table source = .ok (String.ofList chars)
  -- A mnemonic is shown by its opcode, any other word as it stands in the source.
  cases hopcode : table.opcode? (String.ofList chars) with
  | none =>
      rw [InstructionTable.meaning, hopcode] at hbody
      rw [← hlexeme]
      simp only [Token.printed, Token.payload, Token.kind, hbody]
      rfl
  | some code =>
      rw [InstructionTable.meaning, hopcode] at hbody
      have hshown := InstructionTable.mnemonic?_of_opcode? htable hopcode
      simp only [Token.printed, Token.payload, Token.kind, hbody, hshown]
      rfl

end Lexeme

theorem Grammar.Segment.exists_reprints {mode : NumericMode} {lead word rest : List Char}
    {body : Token.Body} (htable : (table.entries.map Prod.snd).Nodup)
    (h : Segment table.meaning mode lead word rest (some body)) (hbody : t.body = body)
    (hlexeme : t.lexeme source = String.ofList word) :
    ∃ l : Lexeme, l.Reprints table source t := by
  obtain ⟨_, range⟩ := t
  cases h with
  | comma =>
      subst hbody
      exact ⟨.comma, fun _ ↦ trivial, rfl, rfl⟩
  | colon =>
      subst hbody
      exact ⟨.colon, fun _ ↦ trivial, rfl, rfl⟩
  | directive hrun hd =>
      rw [← hd, String.ofList_toList] at hlexeme
      exact ⟨_, Lexeme.reprints_directive hbody hlexeme⟩
  | word hrun hne => exact ⟨_, Lexeme.reprints_name htable hne hrun.all hbody hlexeme⟩
  | @general digit _ hdigit =>
      rw [← Register.natCast_ordinal_ofDigit hdigit] at hbody
      exact ⟨_, Lexeme.reprints_register hbody⟩
  | named => exact ⟨_, Lexeme.reprints_register hbody⟩
  | hex _ _ hle => exact ⟨_, Lexeme.reprints_unsigned hle hbody⟩
  | binary hrun _ hle =>
      exact ⟨_, Lexeme.reprints_unsigned (digitsValue_binary_le hrun.all hle) hbody⟩
  | unsigned _ hnumber => exact ⟨_, Lexeme.reprints_unsigned hnumber.le hbody⟩
  | @signed _ digits _ negative _ hnumber =>
      have hle := hnumber.le
      have hmagnitude := natAbs_signedValue negative (digitsValue 10 digits)
      exact ⟨_, Lexeme.reprints_signed (by omega) (by omega) hbody⟩

/-- Every token of a text can be written again. -/
theorem exists_reprints_of_mem {mode : NumericMode} {file : Handle} {rear : List Char}
    {pieces : List (List Char)} {tokens : List Token}
    (htable : (table.entries.map Prod.snd).Nodup)
    (hcut : Cut table.meaning mode file origin source.chars pieces tokens rear) :
    ∀ t ∈ tokens, ∃ l : Lexeme, l.Reprints table source t := by
  intro t ht
  obtain ⟨front, back, rfl⟩ := List.append_of_mem ht
  obtain ⟨frontPieces, lead, word, rest, body, hfront, hsegment, rfl⟩ := hcut.split
  refine hsegment.exists_reprints htable rfl ?_
  exact congrArg String.ofList (hfront.chars_segmentToken body)

end

/-! ## A row of lexemes -/

/-- Lexemes with a space between them are read in turn. -/
theorem exists_cut_spaced (table : InstructionTable) {mode : NumericMode} (file : Handle)
    {lexemes : List Lexeme} (hread : ∀ l ∈ lexemes, l.ReadIn mode) (p : Position) :
    ∃ pieces tokens,
      Cut table.meaning mode file p ([' '].intercalate (lexemes.map Lexeme.text)) pieces tokens
          [] ∧
        tokens.map Token.body = lexemes.map (Lexeme.body table) := by
  -- Behind the last lexeme there is no space, but the end of the text.
  induction lexemes generalizing p with
  | nil => exact ⟨[], [], .nil .., rfl⟩
  | cons l lexemes ih =>
      obtain ⟨hl, htail⟩ := List.forall_mem_cons.mp hread
      cases lexemes with
      | nil =>
          have hcut : Cut table.meaning mode file p (l.text ++ []) _ _ [] :=
            l.cut hl noneAhead_nil (.nil ..)
          rw [List.append_nil] at hcut
          rw [List.map_singleton, List.intercalate_singleton]
          exact ⟨_, _, hcut, rfl⟩
      | cons m lexemes =>
          let gap := Gap.blank ' ' (by decide)
          obtain ⟨pieces, tokens, hcut, hbodies⟩ := ih htail ((p.past l.text).past gap.text)
          obtain ⟨more, hbehind⟩ := gap.cut hcut
          have hfirst := l.cut hl (gap.noneAhead _) hbehind
          rw [List.map_cons, List.map_cons, List.intercalate_cons_cons, List.append_assoc]
          exact ⟨_, _, hfirst, congrArg _ hbodies⟩

theorem mapM_eq_ok_map {α β ε : Type} {f : α → Except ε β} {g : α → β} {xs : List α}
    (h : ∀ x ∈ xs, f x = .ok (g x)) : xs.mapM f = .ok (xs.map g) := by
  rw [mapM_eq_ok_iff, List.forall₂_map_right_iff, List.forall₂_same]
  exact h

/-- The tokens of a text, printed with single spaces between them, are the tokens of what is
printed, in every mode. -/
theorem tokenize_printed (source : SourceFile) {mode : NumericMode} {file : Handle}
    {tokens : List Token} (h : tokenize .standard mode file source.chars = .tokens tokens) :
    ∃ texts, tokens.mapM (Token.printed .standard source) = .ok texts ∧
      ∀ (other : NumericMode) (file : Handle), ∃ others,
        tokenize .standard other file (" ".intercalate texts).toList = .tokens others ∧
          others.map Token.body = tokens.map Token.body := by
  obtain ⟨pieces, hcut⟩ := exists_cut_of_tokenize h
  rw [InstructionTable.wordBody_standard] at hcut
  have hlexemes := exists_reprints_of_mem InstructionTable.nodup_standard hcut
  choose! lexeme hlexeme using hlexemes
  refine ⟨_, mapM_eq_ok_map fun t ht ↦ (hlexeme t ht).printed, ?_⟩
  intro other file
  have hread : ∀ l ∈ tokens.map lexeme, l.ReadIn other := by
    rw [List.forall_mem_map]
    exact fun t ht ↦ (hlexeme t ht).readIn other
  obtain ⟨pieces, others, hothers, hbodies⟩ := exists_cut_spaced .standard file hread .origin
  refine ⟨others, ?_, ?_⟩
  · have htext : (" ".intercalate (tokens.map fun t ↦ String.ofList (lexeme t).text)).toList =
        [' '].intercalate ((tokens.map lexeme).map Lexeme.text) := by
      rw [String.toList_intercalate, List.map_map, List.map_map]
      congr 1
      exact List.map_congr_left fun t _ ↦ String.toList_ofList
    rw [htext]
    rw [← InstructionTable.wordBody_standard] at hothers
    exact tokenize_eq_of_yields (.tokens hothers)
  · rw [hbodies, List.map_map]
    exact List.map_congr_left fun t ht ↦ (hlexeme t ht).body

/-- What is glued together comes apart, and the numbers are written plainly. -/
theorem tokenize_printed_glued :
    ∃ tokens others,
      tokenize .standard .signed 0 "add$rspé007,-0%if".toList = .tokens tokens ∧
        tokenize .standard .float 1 "add $rsp é 0i7 , 0i0 %if".toList = .tokens others ∧
          others.map Token.body = tokens.map Token.body := by
  have htokens : tokenize .standard .signed 0 "add$rspé007,-0%if".toList = .tokens
      [⟨.opcode 16, ⟨⟨0, 0, 0⟩, ⟨3, 0, 3⟩, 0⟩⟩, ⟨.register 0, ⟨⟨4, 0, 4⟩, ⟨7, 0, 7⟩, 0⟩⟩,
        ⟨.identifier, ⟨⟨7, 0, 7⟩, ⟨8, 0, 8⟩, 0⟩⟩, ⟨.signed 7, ⟨⟨8, 0, 8⟩, ⟨11, 0, 11⟩, 0⟩⟩,
        ⟨.comma, ⟨⟨11, 0, 11⟩, ⟨12, 0, 12⟩, 0⟩⟩, ⟨.signed 0, ⟨⟨12, 0, 12⟩, ⟨14, 0, 14⟩, 0⟩⟩,
        ⟨.directive .ifStart, ⟨⟨15, 0, 15⟩, ⟨17, 0, 17⟩, 0⟩⟩] := by
    decide +kernel
  obtain ⟨texts, htexts, hothers⟩ := tokenize_printed ⟨0, "glued", "add$rspé007,-0%if"⟩ htokens
  have hprinted : texts = ["add", "$rsp", "é", "0i7", ",", "0i0", "%if"] := by
    apply Except.ok.inj (htexts.symm.trans _)
    decide +kernel
  rw [hprinted] at hothers
  obtain ⟨others, htokenize, hbodies⟩ := hothers .float 1
  exact ⟨_, others, htokens, htokenize, hbodies⟩

end AsmLexer
