import AsmLexer.Proofs.Exposure
import AsmLexer.Proofs.Payload
import AsmLexer.Text.Slice

/-!
# Token streams

The tokens of a session stand one behind another in the text, each of them within a line, and new
tokens are only ever put behind the others.
-/

namespace AsmLexer

open Grammar Position

/-- A token that a session over the text may hold. -/
structure Token.Sound (table : InstructionTable) (text : List Char) (file : Handle) (t : Token) :
    Prop where
  nonneg : 0 ≤ t.range.start.offset
  lt : t.range.start.offset < t.range.stop.offset
  le_length : t.range.stop.offset ≤ text.length
  singleLine : t.range.IsSingleLine
  lineFeed_notMem : '\n' ∉ Text.slice text t.range.start.offset t.range.stop.offset
  file_eq : t.range.file = file
  body : t.body.Sound table
  payload : ∃ shown, t.payload table = .ok shown ∧ (shown.isSome = true ↔ t.kind ∈ Kind.numbered)

/-- The tokens do not overlap and go no further than the offset. -/
structure InOrder (offset : Int) (tokens : List Token) : Prop where
  pairwise : tokens.Pairwise fun t u ↦ t.range.stop.offset ≤ u.range.start.offset
  le_offset : ∀ t ∈ tokens, t.range.stop.offset ≤ offset

/-! ## Single tokens -/

theorem Text.slice_append {α : Type} (front middle rear : List α) :
    slice (front ++ middle ++ rear) (front.length : Int) (front ++ middle).length = middle := by
  have hstart : front.length ≤ (front ++ middle).length := by
    rw [List.length_append]
    exact Nat.le_add_right ..
  have hstop : (front ++ middle).length ≤ (front ++ middle ++ rear).length := by
    rw [@List.length_append _ (front ++ middle)]
    exact Nat.le_add_right ..
  rw [slice_natCast _ hstart hstop, List.append_assoc, List.drop_left, List.length_append,
    Nat.add_sub_cancel_left, List.take_left]

theorem Token.Covers.sound {table : InstructionTable} {text : List Char} {file : Handle}
    {t : Token} (h : t.Covers text file) (hbody : t.body.Sound table) :
    t.Sound table text file := by
  obtain @⟨front, word, rear, body, rfl, hne, hline⟩ := h
  have hpos := List.length_pos_iff.mpr hne
  have hpast : origin.past (front ++ word) = (origin.past front).right word.length := by
    rw [past_append, past_eq_right _ hline]
  refine ⟨?_, ?_, ?_, ?_, ?_, rfl, hbody, exists_payload hbody⟩
  · rw [offset_past_origin]
    exact Int.natCast_nonneg _
  · rw [offset_past_origin, offset_past_origin, List.length_append]
    omega
  · rw [offset_past_origin, @List.length_append _ (front ++ word)]
    omega
  · rw [hpast]
    apply Range.isSingleLine_of_eq
    · rfl
    · simp only [right, Range.length]
      omega
  · rw [offset_past_origin, offset_past_origin, Text.slice_append]
    exact hline

/-! ## Order -/

theorem InOrder.mono {a b : Int} {tokens : List Token} (h : InOrder a tokens) (hle : a ≤ b) :
    InOrder b tokens :=
  ⟨h.pairwise, fun t ht ↦ Int.le_trans (h.le_offset t ht) hle⟩

theorem InOrder.append_singleton {a b : Int} {tokens : List Token} {t : Token}
    (h : InOrder a tokens) (hstart : a ≤ t.range.start.offset) (hab : a ≤ b)
    (hstop : t.range.stop.offset ≤ b) :
    InOrder b (tokens ++ [t]) := by
  refine ⟨?_, ?_⟩
  · rw [List.pairwise_append]
    refine ⟨h.pairwise, List.pairwise_singleton .., ?_⟩
    intro u hu v hv
    obtain rfl := List.mem_singleton.mp hv
    exact Int.le_trans (h.le_offset u hu) hstart
  · intro u hu
    rcases List.mem_append.mp hu with hold | hnew
    · exact Int.le_trans (h.le_offset u hold) hab
    · obtain rfl := List.mem_singleton.mp hnew
      exact hstop

/-! ## Sessions -/

namespace Lexer

variable {l m : Lexer} {text : List Char}

theorem sound_of_reaches (hreach : Reaches l m) (hl : StandsIn text l)
    (hempty : l.store.toList = []) :
    ∀ t ∈ m.store.toList, t.Sound l.table text l.file := by
  have hnone : ∀ t, t ∉ l.store.toList := by simp [hempty]
  have hcovers := covers_of_reaches hreach hl fun t ht ↦ absurd ht (hnone t)
  have hbody : ∀ t ∈ m.store.toList, t.body.Sound l.table := by
    apply hreach.forall_token (Q := fun t ↦ t.body.Sound l.table) fun t ht ↦ absurd ht (hnone t)
    intro k lead word rest found hk h _ t ht
    cases found with
    | none => cases ht
    | some body =>
        obtain rfl := List.mem_singleton.mp ht
        rw [← hk.table_eq]
        exact .of_segment h
  intro t ht
  exact (hcovers t ht).sound (hbody t ht)

theorem inOrder_of_reaches (hreach : Reaches l m)
    (hl : InOrder l.position.offset l.store.toList) :
    InOrder m.position.offset m.store.toList := by
  refine hreach.invariant (P := fun k ↦ InOrder k.position.offset k.store.toList) hl ?_ ?_
  · intro k lead word rest found _ hk _ _
    have hoffset : (k.position.past (lead ++ word)).offset =
        k.position.offset + (lead.length + word.length : Nat) := by
      rw [offset_past, List.length_append]
    rw [toList_store_advance]
    cases found with
    | none =>
        rw [segmentTokens, List.append_nil]
        exact hk.mono (by simp only [advance]; omega)
    | some body =>
        apply hk.append_singleton
        · rw [offset_past]
          exact Int.le_add_of_nonneg_right (Int.natCast_nonneg _)
        · simp only [advance]
          omega
        · exact Int.le_refl _
  · intro k passed rest hk _
    rw [toList_store_advance, List.append_nil]
    apply hk.mono
    simp only [advance, offset_past]
    omega

/-- In a session the store only grows at its end, and whenever it is looked at its tokens are sound
and in order, up to where the lexer stands. -/
theorem tokenStream_runs (table : InstructionTable) (mode : NumericMode) (file : Handle)
    (text : List Char) (n : Nat) :
    (∀ k, ((start table mode file text).runs n).store.toList <+:
      ((start table mode file text).runs (n + k)).store.toList) ∧
      (∀ t ∈ ((start table mode file text).runs n).store.toList, t.Sound table text file) ∧
      InOrder ((start table mode file text).runs n).position.offset
        ((start table mode file text).runs n).store.toList := by
  have hreach := (start table mode file text).reaches_runs n
  refine ⟨?_, ?_, ?_⟩
  · intro k
    rw [runs_add]
    exact (reaches_runs _ k).store_isPrefix
  · exact sound_of_reaches hreach (standsIn_start table mode file text) rfl
  · have hstart : InOrder (start table mode file text).position.offset
        (start table mode file text).store.toList := ⟨.nil, fun t ht ↦ by cases ht⟩
    exact inOrder_of_reaches hreach hstart

/-- Behind the twenty digits that are too much for a word, the next run finds a number. -/
theorem sound_behind_long_literal :
    (⟨.unsigned 5, ⟨⟨20, 0, 20⟩, ⟨21, 0, 21⟩, 0⟩⟩ : Token) ∈
        ((start .standard .unsigned 0 "999999999999999999995".toList).runs 2).store.toList ∧
      Token.Sound .standard "999999999999999999995".toList 0
        ⟨.unsigned 5, ⟨⟨20, 0, 20⟩, ⟨21, 0, 21⟩, 0⟩⟩ := by
  have hmem : (⟨.unsigned 5, ⟨⟨20, 0, 20⟩, ⟨21, 0, 21⟩, 0⟩⟩ : Token) ∈
      ((start .standard .unsigned 0 "999999999999999999995".toList).runs 2).store.toList := by
    decide +kernel
  obtain ⟨-, hsound, -⟩ :=
    tokenStream_runs .standard .unsigned 0 "999999999999999999995".toList 2
  exact ⟨hmem, hsound _ hmem⟩

end Lexer

end AsmLexer
