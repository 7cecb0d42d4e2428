import AsmLexer.Proofs.Relexing
import AsmLexer.Proofs.TableBuilding

/-!
# Looking up words

A word with an underscore is not looked up. With a table that was built this makes no difference:
its mnemonics are words of the letters `a` to `z`, so a lexer that looks up every word reads the
same tokens and stops at the same places, and each mnemonic is found when it stands by itself.
-/

namespace AsmLexer

open Text Grammar InstructionTable

/-! ## Other readers -/

/-- A way to read what stands in front of a text, with which a run comes to an end. -/
structure Reader where
  next : InstructionTable → NumericMode → Char → List Char → Reading
  advances : ∀ table mode c cs, (next table mode c cs).Advances

namespace Reader

theorem length_rest_after_lt (reader : Reader) {l : Lexer} {c : Char} {cs : List Char}
    (hrest : l.rest = c :: cs) (h : l.outcome? (reader.next l.table l.mode c cs) = none) :
    (l.after (reader.next l.table l.mode c cs)).rest.length < l.rest.length := by
  have hpos := reader.advances l.table l.mode c cs ((Lexer.outcome?_eq_none_iff _ _).1 h)
  rw [Lexer.rest_after, List.length_drop, hrest, List.length_cons]
  omega

/-- A run of the lexer with a reader in the place of its own. -/
def run (reader : Reader) (l : Lexer) : Outcome × Lexer :=
  match _ : l.rest with
  | [] => (.finished, l)
  | c :: cs =>
      match _ : l.outcome? (reader.next l.table l.mode c cs) with
      | some outcome => (outcome, l.after (reader.next l.table l.mode c cs))
      | none => run reader (l.after (reader.next l.table l.mode c cs))
termination_by l.rest.length
decreasing_by exact reader.length_rest_after_lt ‹_› ‹_›

def tokenize (reader : Reader) (table : InstructionTable) (mode : NumericMode) (file : Handle)
    (text : List Char) : Tokenized :=
  match reader.run (Lexer.start table mode file text) with
  | (.finished, l) => .tokens l.store.toList
  | (.failed e, _) => .error e
  | (.unsupported cause, _) => .unsupported cause

variable {reader : Reader} {l : Lexer} {c : Char} {cs : List Char}

theorem run_of_rest_eq_nil (hrest : l.rest = []) : reader.run l = (.finished, l) := by
  rw [run]
  split
  · rfl
  · simp_all

theorem run_of_outcome?_eq_some {outcome : Outcome} (hrest : l.rest = c :: cs)
    (hstop : l.outcome? (reader.next l.table l.mode c cs) = some outcome) :
    reader.run l = (outcome, l.after (reader.next l.table l.mode c cs)) := by
  rw [run]
  split
  · simp_all
  · rename_i d ds hrest'
    obtain ⟨rfl, rfl⟩ := List.cons.inj (hrest'.symm.trans hrest)
    split <;> simp_all

theorem run_of_outcome?_eq_none (hrest : l.rest = c :: cs)
    (hstop : l.outcome? (reader.next l.table l.mode c cs) = none) :
    reader.run l = reader.run (l.after (reader.next l.table l.mode c cs)) := by
  rw [run]
  split
  · simp_all
  · rename_i d ds hrest'
    obtain ⟨rfl, rfl⟩ := List.cons.inj (hrest'.symm.trans hrest)
    split <;> simp_all

/-- Where a reader agrees with that of the lexer on a table, so do the runs. -/
theorem run_eq {table : InstructionTable}
    (hnext : ∀ mode c cs, reader.next table mode c cs = Reading.next table mode c cs)
    (htable : l.table = table) : reader.run l = l.run := by
  induction l using Lexer.run.induct with
  | case1 l hrest => rw [run_of_rest_eq_nil hrest, Lexer.run_of_rest_eq_nil hrest]
  | case2 l c cs hrest outcome hstop =>
      have hsame := hnext l.mode c cs
      rw [← htable] at hsame
      rw [Lexer.run_of_outcome?_eq_some hrest hstop, ← hsame]
      exact run_of_outcome?_eq_some hrest (hsame ▸ hstop)
  | case3 l c cs hrest hstop ih =>
      have hsame := hnext l.mode c cs
      rw [← htable] at hsame
      rw [Lexer.run_of_outcome?_eq_none hrest hstop,
        ← ih ((Lexer.reaches_after hrest).table_eq.trans htable), ← hsame]
      exact run_of_outcome?_eq_none hrest (hsame ▸ hstop)

theorem tokenize_eq {table : InstructionTable}
    (hnext : ∀ mode c cs, reader.next table mode c cs = Reading.next table mode c cs)
    (mode : NumericMode) (file : Handle) (text : List Char) :
    reader.tokenize table mode file text = AsmLexer.tokenize table mode file text := by
  rw [tokenize, run_eq hnext rfl]
  rfl

end Reader

/-! ## Words -/

/-- The word in front of a text, looked up whatever characters it has. -/
def Name.lookUpWord (table : InstructionTable) (text : List Char) : Reading :=
  let word := text.takeWhile isNameChar
  .token (table.meaning word) 0 word.length

/-- The reader of the lexer, but for the words. -/
def Reader.lookingUp : Reader where
  next table mode c cs :=
    match Opening.of c with
    | .word => Name.lookUpWord table (c :: cs)
    | _ => Reading.next table mode c cs
  advances := by
    intro table mode c cs
    cases hc : Opening.of c with
    | word =>
        refine Reading.advances_token ?_
        simp [Opening.isNameChar_of_of_eq_word hc]
    | _ => exact Reading.advances_next table mode c cs

namespace InstructionTable

variable {value : Value} {table : InstructionTable}

theorem isMnemonic_of_build (h : build value = .ok table) :
    ∀ entry ∈ table.entries, IsMnemonic entry.1 := by
  intro entry hentry
  exact isMnemonic_iff.mpr ((legal_of_build h).lettered _ (List.mem_map.mpr ⟨entry, hentry, rfl⟩))

theorem isNameChar_of_isMnemonic {name : String} (h : IsMnemonic name) :
    ∀ c ∈ name.toList, isNameChar c = true := by
  intro c hc
  obtain ⟨hfirst, hlast⟩ := (isMnemonic_iff.mp h).2 c hc
  change 97 ≤ c.toNat at hfirst
  change c.toNat ≤ 122 at hlast
  have halphabetic : Unicode.isAlphabetic c = true := by
    unfold Unicode.isAlphabetic Unicode.alphabeticRanges
    rw [CodeRange.covers_cons_of_gt _ (by omega) (by omega),
      CodeRange.covers_cons_of_mem _ (by omega) (by omega)]
  rw [isNameChar, halphabetic, Bool.or_true]

theorem lookUpWord_eq_readWord (htable : ∀ entry ∈ table.entries, IsMnemonic entry.1)
    (text : List Char) : Name.lookUpWord table text = Name.readWord table text := by
  obtain ⟨word, rest, rfl, hrun⟩ := exists_maximalRun isNameChar text
  rw [Name.readWord_run table hrun, wordBody_eq_meaning htable]
  simp only [Name.lookUpWord, hrun.takeWhile_append]

theorem lookingUp_next (htable : ∀ entry ∈ table.entries, IsMnemonic entry.1)
    (mode : NumericMode) (c : Char) (cs : List Char) :
    Reader.lookingUp.next table mode c cs = Reading.next table mode c cs := by
  cases hc : Opening.of c with
  | word =>
      rw [Reading.next_word cs (Opening.of_eq_word_iff.mp hc), ← lookUpWord_eq_readWord htable]
      simp [Reader.lookingUp, hc]
  | _ => simp [Reader.lookingUp, hc]

theorem meaning_eq_opcode_iff {word : List Char} {code : Nat} :
    table.meaning word = .opcode code ↔ table.opcode? (String.ofList word) = some code := by
  unfold meaning
  cases table.opcode? (String.ofList word) <;> simp

theorem meaning_eq_identifier_iff {word : List Char} :
    table.meaning word = .identifier ↔ table.opcode? (String.ofList word) = none := by
  unfold meaning
  cases table.opcode? (String.ofList word) <;> simp

end InstructionTable

namespace InstructionTable

section

variable {value : Value} {table : InstructionTable} (h : build value = .ok table)
include h

theorem segment_word_of_build (mode : NumericMode) {word rest : List Char} (hne : word ≠ [])
    (hrun : MaximalRun isNameChar word rest) :
    Segment (Name.wordBody table) mode [] word rest (some (table.meaning word)) := by
  rw [← wordBody_eq_meaning (isMnemonic_of_build h)]
  exact .word hrun hne

theorem tokenize_mnemonic {mnemonic : String} {code : Nat}
    (hentry : (mnemonic, code) ∈ table.entries) (mode : NumericMode) (file : Handle) :
    tokenize table mode file mnemonic.toList =
      .tokens [⟨.opcode code, ⟨.origin, Position.origin.right mnemonic.toList.length, file⟩⟩] := by
  have hname := isMnemonic_of_build h _ hentry
  have hrun : MaximalRun isNameChar mnemonic.toList [] :=
    ⟨isNameChar_of_isMnemonic hname, noneAhead_nil⟩
  have hline : '\n' ∉ mnemonic.toList := hrun.notMem (by decide)
  have hmeaning : table.meaning mnemonic.toList = .opcode code := by
    rw [meaning_eq_opcode_iff, String.ofList_toList]
    exact (opcode?_eq_some_iff (nodup_mnemonics_of_build h)).mpr hentry
  have htokens := tokenize_segment (segment_word_of_build h mode hname.1 hrun) file
  rw [hmeaning, segmentToken, List.nil_append, Position.past_eq_right _ hline] at htokens
  exact htokens

end

/-- With a table that was built, a step at a word of name characters takes all of it and stores one
token over it: the opcode that the table has for the word, or an identifier if it has none. A lexer
that looks up every word, also one with an underscore, gives the same results. A mnemonic by itself
is tokenized to one token over the whole text, with its opcode. -/
theorem lookup_of_build {value : Value} {table : InstructionTable} (h : build value = .ok table) :
    (∀ (l : Lexer) (word rest : List Char), l.table = table → l.rest = word ++ rest → word ≠ [] →
      MaximalRun isNameChar word rest → ∃ body,
        (∀ m, l.Steps m ↔ m = l.advance word rest
          [⟨body, ⟨l.position, l.position.right word.length, l.file⟩⟩]) ∧
        (∀ code : Nat, body = .opcode code ↔ table.opcode? (String.ofList word) = some code) ∧
        (body = .identifier ↔ table.opcode? (String.ofList word) = none)) ∧
    (∀ l : Lexer, l.table = table → Reader.lookingUp.run l = l.run) ∧
    (∀ mode file text,
      Reader.lookingUp.tokenize table mode file text = tokenize table mode file text) ∧
    ∀ mnemonic code, (mnemonic, code) ∈ table.entries → ∀ mode file,
      tokenize table mode file mnemonic.toList =
        .tokens [⟨.opcode code,
          ⟨.origin, Position.origin.right mnemonic.toList.length, file⟩⟩] := by
  have hnext := lookingUp_next (isMnemonic_of_build h)
  refine ⟨?_, fun l hl ↦ Reader.run_eq hnext hl, Reader.tokenize_eq hnext,
    fun mnemonic code hentry ↦ tokenize_mnemonic h hentry⟩
  rintro l word rest rfl hrest hne hrun
  have hline : '\n' ∉ word := hrun.notMem (by decide)
  refine ⟨l.table.meaning word, fun m ↦ ?_, fun _ ↦ meaning_eq_opcode_iff,
    meaning_eq_identifier_iff⟩
  rw [Lexer.steps_segment_iff (segment_word_of_build h _ hne hrun) hrest,
    ← l.position.past_eq_right hline]
  rfl

/-- A name with an underscore and a mnemonic, with a table of two fields. -/
theorem lookup_of_build_halt :
    build (.record [("nop", .number 0), ("halt", .number 1)]) =
        .ok ⟨[("nop", 0), ("halt", 1)]⟩ ∧
      (Lexer.start ⟨[("nop", 0), ("halt", 1)]⟩ .signed 3 "no_p halt".toList).Steps
        ((Lexer.start ⟨[("nop", 0), ("halt", 1)]⟩ .signed 3 "no_p halt".toList).advance
          "no_p".toList " halt".toList [⟨.identifier, ⟨.origin, ⟨4, 0, 4⟩, 3⟩⟩]) ∧
      Reader.lookingUp.tokenize ⟨[("nop", 0), ("halt", 1)]⟩ .signed 3 "no_p halt".toList =
        tokenize ⟨[("nop", 0), ("halt", 1)]⟩ .signed 3 "no_p halt".toList ∧
      tokenize ⟨[("nop", 0), ("halt", 1)]⟩ .signed 3 "halt".toList =
        .tokens [⟨.opcode 1, ⟨.origin, ⟨4, 0, 4⟩, 3⟩⟩] := by
  have hbuild : build (.record [("nop", .number 0), ("halt", .number 1)]) =
      .ok ⟨[("nop", 0), ("halt", 1)]⟩ := by
    change addFields {} (((Value.indexed [("nop", .number 0), ("halt", .number 1)]).mergeSort
      fun a b ↦ a.1 ≤ b.1).map (·.2) ++ [("nop", .number 0), ("halt", .number 1)]) = _
    have hindexed : Value.indexed [("nop", .number 0), ("halt", .number 1)] = [] := rfl
    rw [hindexed, List.mergeSort_nil]
    rfl
  obtain ⟨hword, -, htokenize, halone⟩ := lookup_of_build hbuild
  refine ⟨hbuild, ?_, htokenize .., halone "halt" 1 (by decide) .signed 3⟩
  have hrun : MaximalRun isNameChar "no_p".toList " halt".toList :=
    ⟨List.all_eq_true.mp (by decide +kernel), (noneAhead_cons (c := ' ')).mpr (by decide +kernel)⟩
  obtain ⟨body, hsteps, -, hidentifier⟩ :=
    hword (Lexer.start ⟨[("nop", 0), ("halt", 1)]⟩ .signed 3 "no_p halt".toList) _ _ rfl rfl
      (by decide) hrun
  obtain rfl := hidentifier.mpr (by decide)
  exact (hsteps _).mpr rfl

end InstructionTable

end AsmLexer
