import AsmLexer.Proofs.Continuation
import AsmLexer.Proofs.Progress
import AsmLexer.Proofs.Splitting

/-!
# The front part of a text

A reader sees one character beyond its lexeme. What is found in the front part of a text is there
in the whole, up to the last lexeme of that part: it may go on. The one thing that is not seen in
this way is a zero in front of which the float mode stops, without reading it.
-/

namespace AsmLexer

open Text Grammar Position

/-- More text behind a float literal, if it does not turn a zero into a mark. -/
theorem Grammar.FloatAhead.append_of_not_mark {mode : NumericMode} {lead rest more : List Char}
    (hmark : ¬(lead = [] ∧ rest = ['0'] ∧ ∃ c ∈ more.head?, c ∈ markLetters))
    (h : FloatAhead mode lead rest) : FloatAhead mode lead (rest ++ more) := by
  have hopens : lead = [] → ∃ c ∈ (rest ++ more).head?, OpensNumber c := by
    intro hlead
    obtain ⟨c, hc, hopens⟩ := h.opens hlead
    exact ⟨c, by simp [Option.mem_def.mp hc], hopens⟩
  have hmark' := h.mark
  cases hmark' with
  | letter => exact ⟨.letter _, hopens⟩
  | mode hmode hunmarked =>
      refine ⟨.mode hmode ?_, hopens⟩
      intro c tail htext hc
      obtain ⟨d, hd, -⟩ := h.opens rfl
      obtain ⟨seen, rfl⟩ := List.head?_eq_some_iff.mp hd
      obtain ⟨rfl, hbehind⟩ := List.cons.inj htext
      cases seen with
      | nil => exact hmark ⟨rfl, rfl, c, by simpa using congrArg List.head? hbehind, hc⟩
      | cons e seen =>
          obtain ⟨rfl, -⟩ := List.cons.inj hbehind
          exact hunmarked _ _ rfl hc

theorem exists_append_cons_of_getElem? {tokens : List Token} {i : Nat} {t : Token}
    (h : tokens[i]? = some t) : ∃ front back, tokens = front ++ t :: back ∧ front.length = i := by
  obtain ⟨hi, rfl⟩ := List.getElem?_eq_some_iff.mp h
  refine ⟨tokens.take i, tokens.drop (i + 1), ?_, List.length_take_of_le (Nat.le_of_lt hi)⟩
  rw [← List.drop_eq_getElem_cons hi, List.take_append_drop]

/-- The cutting up to a token that ends before the text does, with that token. -/
theorem Cut.exists_front {words : List Char → Token.Body} {mode : NumericMode} {file : Handle}
    {p : Position} {text rear : List Char} {pieces : List (List Char)} {front back : List Token}
    {t : Token}
    (h : Cut words mode file p text pieces (front ++ t :: back) rear)
    (hstop : t.range.stop.offset < p.offset + text.length) :
    ∃ frontPieces rest, rest ≠ [] ∧ Cut words mode file p text frontPieces (front ++ [t]) rest := by
  obtain ⟨frontPieces, lead, word, rest, body, hcut, hhead, rfl⟩ := h.split
  refine ⟨_, rest, ?_, hcut.trans (.cons hhead (.nil ..))⟩
  rintro rfl
  rw [hcut.text_eq] at hstop
  simp only [segmentToken, offset_past, List.length_append, List.length_nil] at hstop
  omega

namespace Lexer

variable {l m : Lexer} {outcome : Outcome} {more rear : List Char} {pieces : List (List Char)}
  {tokens : List Token}

/-- The lexer with more text behind what it has in front. -/
def extended (l : Lexer) (more : List Char) : Lexer :=
  { l with rest := l.rest ++ more }

/-- With more text behind, the zero in front of which the run stops becomes a mark. -/
structure ZeroBecomesMark (l : Lexer) (more : List Char) : Prop where
  meets : l.MeetsFloat []
  rest_eq : l.run.2.rest = ['0']
  letter : ∃ c ∈ more.head?, c ∈ markLetters

/-! ## The stop of a run -/

theorem RunsTo.extended (h : RunsTo l outcome m) (hrest : m.rest ≠ [])
    (hmark : ¬l.ZeroBecomesMark more) : RunsTo (l.extended more) outcome (m.extended more) := by
  have hrun := h.run_eq
  have hmore (rest : List Char) (hne : rest ≠ []) : SameAhead rest more :=
    sameAhead_of_ne_nil hne more
  cases h with
  | finished => exact absurd rfl hrest
  | @unexpected _ _ c rest hcut h => exact .unexpected (hcut.append (hmore (c :: rest) nofun)) h
  | missing hcut h =>
      have hcut' := hcut.append (hmore _ (List.append_ne_nil_of_right_ne_nil _ hrest))
      rw [List.append_assoc] at hcut'
      cases h with
      | identifier hnone =>
          have hnone' := hnone.append (hmore _ hrest) (by decide)
          exact .missing hcut' (.identifier hnone')
      -- A register is cut off by the end of the text only, with nothing left behind it.
      | register => exact absurd rfl hrest
  | fault hcut h =>
      have hcut' := hcut.append (hmore _ (List.append_ne_nil_of_right_ne_nil _ hrest))
      rw [List.append_assoc] at hcut'
      exact .fault hcut' (h.append (hmore _ hrest))
  | float hcut h =>
      have hcut' := hcut.append (hmore _ (List.append_ne_nil_of_right_ne_nil _ hrest))
      rw [List.append_assoc] at hcut'
      refine .float hcut' (h.append_of_not_mark ?_)
      rintro ⟨rfl, rfl, hletter⟩
      exact hmark ⟨⟨_, _, _, hcut, h⟩, by rw [hrun]; rfl, hletter⟩

/-- In front of a mark a lexer is not stuck. -/
theorem lt_of_mark_ahead {c : Char} {tail : List Char} (hrest : l.rest = '0' :: c :: tail)
    (hc : c ∈ markLetters) : l.position.offset < l.run.2.position.offset := by
  rcases l.runsTo_run.stuck_or_lt with hstuck | hlt
  · generalize l.run.1 = outcome at hstuck
    cases hstuck with
    | finished hnil => rw [hrest] at hnil; cases hnil
    | unexpected hrest' h =>
        obtain ⟨rfl, -⟩ := List.cons.inj (hrest.symm.trans hrest')
        exact absurd h.notDigit (by decide)
    | float _ h =>
        have hmark := h.mark
        cases hmark with
        | mode _ hunmarked => exact absurd hc (hunmarked c tail hrest)
  · exact hlt

theorem ZeroBecomesMark.lt (h : l.ZeroBecomesMark more) :
    l.run.2.position.offset < (l.extended more).run.2.position.offset := by
  obtain ⟨⟨pieces, tokens, rest, hcut, hfloat⟩, hrest, c, hc, hletter⟩ := h
  obtain ⟨tail, rfl⟩ := List.head?_eq_some_iff.mp hc
  have hrun := (@RunsTo.float l pieces tokens [] rest hcut hfloat).run_eq
  rw [hrun] at hrest ⊢
  obtain rfl : rest = ['0'] := hrest
  have hcut' := hcut.append (sameAhead_of_ne_nil (List.cons_ne_nil '0' []) (c :: tail))
  have hrun' : (l.extended (c :: tail)).run =
    ((l.extended (c :: tail)).advance pieces.flatten ('0' :: c :: tail) tokens).run := run_cut hcut'
  rw [hrun', List.append_nil]
  exact lt_of_mark_ahead rfl hletter

/-! ## The tokens in front -/

theorem RunsTo.exists_cut (h : RunsTo l outcome m) :
    ∃ pieces tokens rear,
      Cut (Name.wordBody l.table) l.mode l.file l.position l.rest pieces tokens rear ∧
        m.store.toList = l.store.toList ++ tokens := by
  cases h with
  | finished hcut => exact ⟨_, _, _, hcut, toList_store_advance ..⟩
  | unexpected hcut => exact ⟨_, _, _, hcut, toList_store_advance ..⟩
  | missing hcut => exact ⟨_, _, _, hcut, toList_store_advance ..⟩
  | fault hcut => exact ⟨_, _, _, hcut, toList_store_advance ..⟩
  | float hcut => exact ⟨_, _, _, hcut, toList_store_advance ..⟩

theorem store_run_of_cut
    (hcut : Cut (Name.wordBody l.table) l.mode l.file l.position l.rest pieces tokens rear) :
    l.store.toList ++ tokens <+: l.run.2.store.toList := by
  rw [run_cut hcut, ← toList_store_advance l pieces.flatten rear tokens]
  exact (reaches_run _).store_isPrefix

theorem getElem?_store_extended {i : Nat} {t : Token}
    (hcut : Cut (Name.wordBody l.table) l.mode l.file l.position l.rest pieces tokens rear)
    (ht : (l.store.toList ++ tokens)[i]? = some t) (hi : l.store.toList.length ≤ i)
    (hstop : t.range.stop.offset < l.position.offset + l.rest.length) (more : List Char) :
    (l.extended more).run.2.store.toList[i]? = some t := by
  rw [List.getElem?_append_right hi] at ht
  obtain ⟨front, back, rfl, hlength⟩ := exists_append_cons_of_getElem? ht
  obtain ⟨frontPieces, rest, hrest, hfront⟩ := hcut.exists_front hstop
  have hcut' : Cut (Name.wordBody (l.extended more).table) (l.extended more).mode
      (l.extended more).file (l.extended more).position (l.extended more).rest frontPieces
      (front ++ [t]) (rest ++ more) := hfront.append (sameAhead_of_ne_nil hrest more)
  obtain ⟨behind, hstore⟩ := store_run_of_cut hcut'
  have hlength' : i = (l.store.toList ++ front).length := by
    rw [List.length_append, hlength]
    omega
  rw [← hstore, hlength']
  simp [Lexer.extended]

/-- The second run ends as the first one does. -/
structure SameStop (first second : Outcome × Lexer) : Prop where
  outcome : second.1 = first.1
  tokens : second.2.store.toList = first.2.store.toList
  position : second.2.position = first.2.position

theorem RunsTo.sameStop (h : RunsTo l outcome m) (hrest : m.rest ≠ [])
    (hmark : ¬l.ZeroBecomesMark more) : SameStop l.run (l.extended more).run := by
  rw [h.run_eq, (h.extended hrest hmark).run_eq]
  exact ⟨rfl, rfl, rfl⟩

/-- What a run finds before the last lexeme of a text stays when more text comes behind: the tokens
that end before the end of the text, and the stop if it is before the end. Only a zero at the end
that stops a run in float mode does so no more when it becomes a mark. -/
theorem run_append (table : InstructionTable) (mode : NumericMode) (file : Handle)
    (text more : List Char) :
    let first := (start table mode file text).run
    let second := (start table mode file (text ++ more)).run
    (∀ (i : Nat) (t : Token), first.2.store.toList[i]? = some t →
        t.range.stop.offset < text.length → second.2.store.toList[i]? = some t) ∧
      (first.2.position.offset < text.length →
        (SameStop first second ↔ ¬(start table mode file text).ZeroBecomesMark more)) := by
  intro first second
  have hruns : RunsTo (start table mode file text) first.1 first.2 := runsTo_run _
  have hsecond : second = ((start table mode file text).extended more).run := rfl
  refine ⟨?_, ?_⟩
  · intro i t ht hstop
    obtain ⟨pieces, tokens, rear, hcut, hstore⟩ := hruns.exists_cut
    rw [hstore] at ht
    refine getElem?_store_extended hcut ht (Nat.zero_le i) ?_ more
    simpa [start, origin] using hstop
  · intro hlt
    constructor
    · intro hsame hzero
      have hforward := hzero.lt
      rw [← hsecond, hsame.position] at hforward
      exact absurd hforward (Int.lt_irrefl _)
    · intro hmark
      have hstands := (standsIn_start table mode file text).of_reaches (reaches_run _)
      refine hruns.sameStop ?_ hmark
      intro hnil
      have hlength := hstands.offset_add_length
      rw [hnil, List.length_nil] at hlength
      exact absurd hlt (by simp only [first]; omega)

/-- In front of a blank the zero makes no mark, so the float mode stops there in the whole text too,
and has found the same opcode. -/
theorem run_append_blank :
    (start .standard .float 0 "ret 0 ".toList).run.2.store.toList[0]? =
        some ⟨.opcode 68, ⟨⟨0, 0, 0⟩, ⟨3, 0, 3⟩, 0⟩⟩ ∧
      (start .standard .float 0 ("ret 0 ".toList ++ "x1".toList)).run.2.store.toList[0]? =
        some ⟨.opcode 68, ⟨⟨0, 0, 0⟩, ⟨3, 0, 3⟩, 0⟩⟩ ∧
      SameStop (start .standard .float 0 "ret 0 ".toList).run
        (start .standard .float 0 ("ret 0 ".toList ++ "x1".toList)).run := by
  have hfirst : (start .standard .float 0 "ret 0 ".toList).run.2.store.toList[0]? =
      some ⟨.opcode 68, ⟨⟨0, 0, 0⟩, ⟨3, 0, 3⟩, 0⟩⟩ := by
    decide +kernel
  have hoffset : (start .standard .float 0 "ret 0 ".toList).run.2.position.offset = 4 := by
    decide +kernel
  have hrest : (start .standard .float 0 "ret 0 ".toList).run.2.rest = ['0', ' '] := by
    decide +kernel
  have happend := run_append .standard .float 0 "ret 0 ".toList "x1".toList
  refine ⟨hfirst, happend.1 0 _ hfirst (by decide), (happend.2 ?_).mpr ?_⟩
  · rw [hoffset]
    decide
  · intro hzero
    have hbad := hzero.rest_eq
    rw [hrest] at hbad
    cases hbad

/-- A zero at the end stops the float mode, but with more text it may be a mark. -/
theorem not_sameStop_zero :
    (start .standard .float 0 "0".toList).run.1 = .unsupported (.floatLiteral ⟨0, 0, 0⟩) ∧
      (start .standard .float 0 "0".toList).run.2.position.offset < "0".toList.length ∧
      ¬SameStop (start .standard .float 0 "0".toList).run
        (start .standard .float 0 ("0".toList ++ "x1".toList)).run := by
  have hfirst : (start .standard .float 0 "0".toList).run.1 =
      .unsupported (.floatLiteral ⟨0, 0, 0⟩) := by
    decide +kernel
  have hsecond : (start .standard .float 0 ("0".toList ++ "x1".toList)).run.1 = .finished := by
    decide +kernel
  refine ⟨hfirst, by decide +kernel, ?_⟩
  intro hsame
  have houtcome := hsame.outcome
  rw [hfirst, hsecond] at houtcome
  cases houtcome

end Lexer

end AsmLexer
