import AsmLexer.Proofs.Grammar

/-!
# Reading names

The readers of directives, words and registers find what the grammar says is there.
-/

namespace AsmLexer

open Text Grammar

namespace Directive

theorem ofSpelling?_eq_some_iff {word : String} {d : Directive} :
    ofSpelling? word = some d ↔ d.spelling = word := by
  refine ⟨spelling_of_ofSpelling?, ?_⟩
  rintro rfl
  cases d <;> decide

theorem ofSpelling?_eq_none_iff {word : String} :
    ofSpelling? word = none ↔ ∀ d : Directive, d.spelling ≠ word := by
  simp only [Option.eq_none_iff_forall_ne_some, ne_eq, ofSpelling?_eq_some_iff]

end Directive

namespace Register

theorem group?_eq_none_iff {first : Char} :
    group? first = none ↔ ['r', first] ∉ unfinishedRegisters := by
  simp [group?, byLetters, unfinishedRegisters, List.lookup_eq_none_iff]

theorem ordinal_ofDigit {digit : Char} (h : digit.isDigit = true) :
    (ofDigit digit).ordinal = 6 + digitValue digit := by
  obtain ⟨hfirst, hlast⟩ := toNat_le_of_isDigit h
  simp only [ofDigit, ordinal, digitValue, h, Fin.val_ofNat, if_true]
  change 6 + (digit.toNat - 48) % 10 = 6 + (digit.toNat - 48)
  omega

theorem mem_unfinishedRegisters {first : Char} {group : List (Char × Register)}
    (h : group? first = some group) : ['r', first] ∈ unfinishedRegisters := by
  apply Classical.byContradiction
  intro hnot
  simp [group?_eq_none_iff.mpr hnot] at h

theorem isDigit_eq_false_of_group? {first : Char} {group : List (Char × Register)}
    (h : group? first = some group) : first.isDigit = false := by
  have hmem := mem_unfinishedRegisters h
  simp only [unfinishedRegisters, List.mem_cons, List.cons.injEq, and_true, true_and,
    List.not_mem_nil, or_false, reduceCtorEq, false_or, and_false] at hmem
  rcases hmem with rfl | rfl | rfl | rfl <;> rfl

end Register

namespace Name

def wordBody (table : InstructionTable) (word : List Char) : Token.Body :=
  if '_' ∈ word then .identifier else table.meaning word

theorem readWord_run (table : InstructionTable) {word rest : List Char}
    (hrun : MaximalRun isNameChar word rest) :
    readWord table (word ++ rest) = .token (wordBody table word) 0 word.length := by
  simp only [readWord, hrun.takeWhile_append, wordBody, InstructionTable.meaning]
  split
  · rfl
  · cases table.opcode? (String.ofList word) <;> rfl

theorem readDirective_noneAhead {rest : List Char} (h : NoneAhead isNameChar rest) :
    readDirective rest = .atPoint .emptyIdentifier 1 1 := by
  simp [readDirective, takeWhile_eq_nil_iff.mpr h]

theorem readDirective_spelling {word rest : List Char} {d : Directive}
    (hrun : MaximalRun isNameChar word rest) (hd : d.spelling.toList = word) :
    readDirective (word ++ rest) = .token (.directive d) 1 word.length := by
  have hne : word ≠ [] := by
    rintro rfl
    cases d <;> simp [Directive.spelling] at hd
  have hspelling : Directive.ofSpelling? (String.ofList word) = some d := by
    rw [Directive.ofSpelling?_eq_some_iff, ← hd, String.ofList_toList]
  simp [readDirective, hrun.takeWhile_append, hne, hspelling]

theorem readDirective_unknown {word rest : List Char} (hrun : MaximalRun isNameChar word rest)
    (hne : word ≠ []) (hword : ∀ d : Directive, d.spelling.toList ≠ word) :
    readDirective (word ++ rest) = .over .directive 1 word.length := by
  have hspelling : Directive.ofSpelling? (String.ofList word) = none := by
    rw [Directive.ofSpelling?_eq_none_iff]
    intro d hd
    exact hword d (by rw [hd, String.toList_ofList])
  simp [readDirective, hrun.takeWhile_append, hne, hspelling]

theorem readRegister_unfinished :
    ∀ passed ∈ unfinishedRegisters,
      readRegister passed = .atPoint .registerAtEnd 1 (1 + passed.length) := by
  decide

theorem readRegister_general {digit : Char} {rest : List Char} (hdigit : digit.isDigit = true)
    (hrest : NoneAhead isAlphanumeric rest) :
    readRegister ('r' :: digit :: rest) = .token (.register (6 + digitValue digit)) 1 2 := by
  simp [readRegister, hdigit, takeWhile_eq_nil_iff.mpr hrest, Register.ordinal_ofDigit hdigit]

theorem readRegister_named {first second : Char} {r : Register} (rest : List Char)
    (hr : Register.named? first second = some r) :
    readRegister ('r' :: first :: second :: rest) = .token (.register r.ordinal) 1 3 := by
  obtain ⟨group, hgroup, hsecond⟩ := Option.bind_eq_some_iff.mp hr
  have hfirst := Register.isDigit_eq_false_of_group? hgroup
  simp [readRegister, hfirst, hgroup, hsecond]

theorem readRegister_invalid {text : List Char} (hend : text ∉ unfinishedRegisters)
    (hgeneral : ∀ digit rest, text = 'r' :: digit :: rest → digit.isDigit = true →
      ¬NoneAhead isAlphanumeric rest)
    (hnamed : ∀ first second rest, text = 'r' :: first :: second :: rest →
      Register.named? first second = none) :
    readRegister text = invalidRegister text := by
  unfold readRegister
  split
  · exact absurd (by decide) hend
  · exact absurd (by decide) hend
  · rename_i first rest
    split
    · rename_i hdigit
      have hrest := hgeneral first rest rfl hdigit
      rw [← takeWhile_eq_nil_iff] at hrest
      rw [if_neg hrest]
    · split
      · rfl
      · rename_i hgroup
        exact absurd (Register.mem_unfinishedRegisters hgroup) hend
      · rename_i group second tail hgroup
        have hnone : group.lookup second = none := by
          simpa [Register.named?, hgroup] using hnamed first second tail rfl
        rw [hnone]
  · rfl

theorem invalidRegister_run {name rest : List Char} (hrun : MaximalRun isAlphanumeric name rest) :
    invalidRegister (name ++ rest) = .over .register 1 name.length := by
  rw [invalidRegister, hrun.takeWhile_append]

/-- A digit right after `$r` that ends the name makes a register, so it is in no fault. -/
theorem readRegister_fault {name rest : List Char} (hrun : MaximalRun isAlphanumeric name rest)
    (hnamed : ∀ first second tail, name ++ rest = 'r' :: first :: second :: tail →
      Register.named? first second = none)
    (hgeneral : ∀ digit : Char, digit.isDigit = true → name ≠ ['r', digit])
    (hend : name ++ rest ∉ unfinishedRegisters) :
    readRegister (name ++ rest) = .over .register 1 name.length := by
  rw [readRegister_invalid hend ?_ hnamed, invalidRegister_run hrun]
  intro digit tail htext hdigit hstop
  have hrun' : MaximalRun isAlphanumeric ['r', digit] tail := by
    refine ⟨?_, hstop⟩
    simp only [List.mem_cons, List.not_mem_nil, or_false]
    rintro c (rfl | rfl)
    · decide
    · exact isAlphanumeric_of_isDigit hdigit
  have hname : name = ['r', digit] := by
    rw [← hrun.takeWhile_append, htext]
    exact hrun'.takeWhile_append
  exact hgeneral digit hdigit hname

end Name

end AsmLexer
