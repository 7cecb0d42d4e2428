import AsmLexer.Proofs.Cutting

/-!
# Tokenization

A text has tokens if it can be cut into segments to its end. The grammar is that of the standard
instructions: a mnemonic has no underscore in it, so it makes no difference that the lexer does not
look up the words with one.
-/

namespace AsmLexer

open Grammar

namespace InstructionTable

theorem opcode?_eq_none_of_underscore {table : InstructionTable} {word : List Char}
    (htable : ∀ entry ∈ table.entries, IsMnemonic entry.1) (hword : '_' ∈ word) :
    table.opcode? (String.ofList word) = none := by
  rw [opcode?, List.lookup_eq_none_iff]
  intro entry hentry
  obtain ⟨-, hlower⟩ := htable entry hentry
  have hne : String.ofList word ≠ entry.1 := by
    intro heq
    rw [← heq, String.toList_ofList] at hlower
    exact absurd (hlower '_' hword) (by decide)
  simpa using hne

theorem wordBody_eq_meaning {table : InstructionTable}
    (htable : ∀ entry ∈ table.entries, IsMnemonic entry.1) :
    Name.wordBody table = table.meaning := by
  funext word
  by_cases hword : '_' ∈ word
  · rw [Name.wordBody, if_pos hword, meaning, opcode?_eq_none_of_underscore htable hword]
  · rw [Name.wordBody, if_neg hword]

theorem wordBody_standard : Name.wordBody standard = standard.meaning :=
  wordBody_eq_meaning (by decide)

end InstructionTable

namespace Lexer

theorem outcome?_ne_finished (l : Lexer) (r : Reading) : l.outcome? r ≠ some .finished := by
  cases r <;> simp [outcome?]

/-- A first run reads all of a text that can be cut, and only of such a text. -/
theorem run_start_eq_finished_iff (table : InstructionTable) (mode : NumericMode) (file : Handle)
    (text : List Char) (l : Lexer) :
    (start table mode file text).run = (.finished, l) ↔
      ∃ pieces tokens, Cut (Name.wordBody table) mode file .origin text pieces tokens [] ∧
        l = (start table mode file text).advance pieces.flatten [] tokens := by
  constructor
  · intro hrun
    obtain ⟨pieces, tokens, rear, hcut, hcase⟩ := (start table mode file text).run_cases
    rcases hcase with ⟨rfl, hrun'⟩ | ⟨r, outcome, -, houtcome, hrun'⟩
    · rw [hrun] at hrun'
      exact ⟨pieces, tokens, hcut, (Prod.mk.inj hrun').2⟩
    · rw [hrun] at hrun'
      obtain ⟨rfl, -⟩ := Prod.mk.inj hrun'
      exact absurd houtcome (outcome?_ne_finished _ _)
  · rintro ⟨pieces, tokens, hcut, rfl⟩
    exact run_cut_nil hcut

end Lexer

theorem tokenize_eq_tokens_iff_run {table : InstructionTable} {mode : NumericMode} {file : Handle}
    {text : List Char} {tokens : List Token} :
    tokenize table mode file text = .tokens tokens ↔
      ∃ l, (Lexer.start table mode file text).run = (.finished, l) ∧ l.store.toList = tokens := by
  unfold tokenize
  obtain ⟨outcome, l⟩ := (Lexer.start table mode file text).run
  cases outcome <;> simp

/-- A text has just the tokens of its cutting, and there is one way only to cut it. -/
theorem tokenize_eq_tokens_iff_cut (mode : NumericMode) (file : Handle) (text : List Char)
    (tokens : List Token) :
    (tokenize .standard mode file text = .tokens tokens ↔
      ∃ pieces,
        Cut InstructionTable.standard.meaning mode file .origin text pieces tokens []) ∧
      ∀ pieces₁ pieces₂ tokens₁ tokens₂,
        Cut InstructionTable.standard.meaning mode file .origin text pieces₁ tokens₁ [] →
          Cut InstructionTable.standard.meaning mode file .origin text pieces₂ tokens₂ [] →
            pieces₁ = pieces₂ ∧ tokens₁ = tokens₂ := by
  rw [← InstructionTable.wordBody_standard]
  refine ⟨?_, ?_⟩
  · rw [tokenize_eq_tokens_iff_run]
    constructor
    · rintro ⟨l, hrun, rfl⟩
      obtain ⟨pieces, tokens, hcut, rfl⟩ := (Lexer.run_start_eq_finished_iff ..).mp hrun
      have htokens : ((Lexer.start .standard mode file text).advance pieces.flatten []
          tokens).store.toList = tokens := Lexer.toList_store_advance ..
      exact ⟨pieces, htokens.symm ▸ hcut⟩
    · rintro ⟨pieces, hcut⟩
      exact ⟨_, (Lexer.run_start_eq_finished_iff ..).mpr ⟨pieces, tokens, hcut, rfl⟩,
        Lexer.toList_store_advance ..⟩
  · intro pieces₁ pieces₂ tokens₁ tokens₂ h₁ h₂
    obtain ⟨hpieces, htokens, -⟩ := h₁.unique h₂ (.inl rfl) (.inl rfl)
    exact ⟨hpieces, htokens⟩

/-- The letters of a named register may be followed by anything. -/
example : tokenize .standard .unsigned 0 "$rspx".toList =
    .tokens [⟨.register 0, ⟨⟨1, 0, 1⟩, ⟨4, 0, 4⟩, 0⟩⟩,
      ⟨.identifier, ⟨⟨4, 0, 4⟩, ⟨5, 0, 5⟩, 0⟩⟩] := by
  decide +kernel

end AsmLexer
