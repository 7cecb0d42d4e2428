import AsmLexer.Proofs.Cutting

/-!
# Sessions

A lexer may be run again and again, whatever its runs end with. On the way it makes one reading
after another: it takes a segment, or it passes over a part of what is at fault. All that is kept by
these two holds of every state of a session.
-/

namespace AsmLexer.Lexer

open Grammar

def runs (l : Lexer) : Nat → Lexer
  | 0 => l
  | n + 1 => (l.runs n).run.2

/-- The states that come after one another, reading by reading. -/
inductive Reaches (l : Lexer) : Lexer → Prop
  | refl : Reaches l l
  | step {m : Lexer} {c : Char} {cs : List Char} (hreach : Reaches l m) (hrest : m.rest = c :: cs) :
      Reaches l (m.after (Reading.next m.table m.mode c cs))

/-- What one reading leads to. -/
inductive Steps (l : Lexer) : Lexer → Prop
  | intro {c : Char} {cs : List Char} (hrest : l.rest = c :: cs) :
      Steps l (l.after (Reading.next l.table l.mode c cs))

variable {l m : Lexer} {c : Char} {cs : List Char}

theorem Reaches.trans {k : Lexer} (hfirst : Reaches l m) (hsecond : Reaches m k) :
    Reaches l k := by
  induction hsecond with
  | refl => exact hfirst
  | step _ hrest ih => exact .step ih hrest

theorem reaches_after (hrest : l.rest = c :: cs) :
    Reaches l (l.after (Reading.next l.table l.mode c cs)) :=
  .step .refl hrest

theorem reaches_run (l : Lexer) : Reaches l l.run.2 := by
  induction l using run.induct with
  | case1 l hrest =>
      rw [run_of_rest_eq_nil hrest]
      exact .refl
  | case2 l c cs hrest outcome hstop =>
      rw [run_of_outcome?_eq_some hrest hstop]
      exact reaches_after hrest
  | case3 l c cs hrest hstop ih =>
      rw [run_of_outcome?_eq_none hrest hstop]
      exact (reaches_after hrest).trans ih

theorem reaches_runs (l : Lexer) (n : Nat) : Reaches l (l.runs n) := by
  induction n with
  | zero => exact .refl
  | succ n ih => exact ih.trans (reaches_run _)

theorem runs_add (l : Lexer) (n k : Nat) : l.runs (n + k) = (l.runs n).runs k := by
  induction k with
  | zero => rfl
  | succ k ih => rw [← Nat.add_assoc, runs, runs, ih]

/-- What stops a run stands at a state that the run has come to. -/
theorem run_fst_cases (l : Lexer) :
    l.run.1 = .finished ∨ ∃ m c cs, Reaches l m ∧ m.rest = c :: cs ∧
      m.outcome? (Reading.next m.table m.mode c cs) = some l.run.1 := by
  induction l using run.induct with
  | case1 l hrest => exact .inl (by rw [run_of_rest_eq_nil hrest])
  | case2 l c cs hrest outcome hstop =>
      rw [run_of_outcome?_eq_some hrest hstop]
      exact .inr ⟨l, c, cs, .refl, hrest, hstop⟩
  | case3 l c cs hrest hstop ih =>
      rw [run_of_outcome?_eq_none hrest hstop]
      rcases ih with hfinished | ⟨m, d, ds, hreach, hrest', hout⟩
      · exact .inl hfinished
      · exact .inr ⟨m, d, ds, (reaches_after hrest).trans hreach, hrest', hout⟩

/-! ## What a reading does -/

/-- Where a run stops, something within a line has been passed over and nothing else is new. -/
theorem after_stop {r : Reading} {passed rest : List Char} (hrest : l.rest = passed ++ rest)
    (hstop : r.continues = false) (hconsumed : r.consumed = passed.length)
    (hline : '\n' ∉ passed) : l.after r = l.advance passed rest [] := by
  have hdrop : l.rest.drop passed.length = rest := by
    rw [hrest, List.drop_left]
  have hpast := l.position.past_eq_right hline
  have hafter : l.after r =
      { l with rest := l.rest.drop r.consumed, position := l.position.right r.consumed } := by
    cases r with
    | lineFeed => cases hstop
    | token => cases hstop
    | _ => rfl
  rw [hafter, hconsumed, hdrop, ← hpast]
  simp [advance]

/-- A reading takes a segment, or it adds no token and passes over something. -/
theorem after_cases (hrest : l.rest = c :: cs) :
    (∃ lead word rest found, Segment (Name.wordBody l.table) l.mode lead word rest found ∧
      l.rest = lead ++ word ++ rest ∧
        l.after (Reading.next l.table l.mode c cs) =
          l.advance (lead ++ word) rest (segmentTokens l.file l.position lead word found)) ∨
      ∃ passed rest, l.rest = passed ++ rest ∧
        l.after (Reading.next l.table l.mode c cs) = l.advance passed rest [] := by
  have hreads := Reading.reads_next l.table l.mode c cs
  rw [← hrest] at hreads
  generalize Reading.next l.table l.mode c cs = r at hreads
  generalize htext : l.rest = text at hreads
  cases hreads with
  | segment h => exact .inl ⟨_, _, _, _, h, rfl, after_segment h htext⟩
  | unexpected rest h =>
      have hline : '\n' ∉ ([] : List Char) := List.not_mem_nil
      exact .inr ⟨[], _, rfl, after_stop htext rfl rfl hline⟩
  | missing h =>
      exact .inr ⟨_, _, rfl, after_stop htext rfl List.length_append.symm h.lineFeed_notMem⟩
  | fault h =>
      exact .inr ⟨_, _, rfl, after_stop htext rfl List.length_append.symm h.lineFeed_notMem⟩
  | float h => exact .inr ⟨_, _, rfl, after_stop htext rfl rfl h.lineFeed_notMem⟩

/-- Where a segment stands, a step takes it. -/
theorem steps_segment_iff {lead word rest : List Char} {found : Option Token.Body}
    (h : Segment (Name.wordBody l.table) l.mode lead word rest found)
    (hrest : l.rest = lead ++ word ++ rest) :
    l.Steps m ↔
      m = l.advance (lead ++ word) rest (segmentTokens l.file l.position lead word found) := by
  obtain ⟨c, cs, htext⟩ := List.exists_cons_of_ne_nil (Reads.segment h).ne_nil
  rw [← after_segment h hrest, ← Reading.next_segment h htext]
  constructor
  · rintro ⟨hrest'⟩
    obtain ⟨rfl, rfl⟩ := List.cons.inj (hrest'.symm.trans (hrest.trans htext))
    rfl
  · rintro rfl
    exact .intro (hrest.trans htext)

/-- What segments and passing over keep holds of all states that are reached. -/
theorem Reaches.invariant {P : Lexer → Prop} (hreach : Reaches l m) (hl : P l)
    (hsegment : ∀ k lead word rest found, Reaches l k → P k →
      Segment (Name.wordBody k.table) k.mode lead word rest found →
        k.rest = lead ++ word ++ rest →
          P (k.advance (lead ++ word) rest (segmentTokens k.file k.position lead word found)))
    (hpass : ∀ k passed rest, P k → k.rest = passed ++ rest → P (k.advance passed rest [])) :
    P m := by
  induction hreach with
  | refl => exact hl
  | @step k c cs hk hrest ih =>
      rcases after_cases hrest with
        ⟨lead, word, rest, found, h, htext, hafter⟩ | ⟨passed, rest, htext, hafter⟩
      · rw [hafter]
        exact hsegment k lead word rest found hk ih h htext
      · rw [hafter]
        exact hpass k passed rest ih htext

theorem Reaches.table_eq (h : Reaches l m) : m.table = l.table :=
  h.invariant (P := fun k ↦ k.table = l.table) rfl
    (fun _ _ _ _ _ _ hk _ _ ↦ hk) fun _ _ _ hk _ ↦ hk

theorem Reaches.mode_eq (h : Reaches l m) : m.mode = l.mode :=
  h.invariant (P := fun k ↦ k.mode = l.mode) rfl
    (fun _ _ _ _ _ _ hk _ _ ↦ hk) fun _ _ _ hk _ ↦ hk

theorem Reaches.file_eq (h : Reaches l m) : m.file = l.file :=
  h.invariant (P := fun k ↦ k.file = l.file) rfl
    (fun _ _ _ _ _ _ hk _ _ ↦ hk) fun _ _ _ hk _ ↦ hk

theorem Reaches.store_isPrefix (h : Reaches l m) : l.store.toList <+: m.store.toList := by
  refine h.invariant (P := fun k ↦ l.store.toList <+: k.store.toList) ?_ ?_ ?_
  · exact List.prefix_refl _
  · intro k lead word rest found _ hk _ _
    rw [toList_store_advance]
    exact List.prefix_append_of_prefix hk
  · intro k passed rest hk _
    rw [toList_store_advance]
    exact List.prefix_append_of_prefix hk

theorem Reaches.forall_token {Q : Token → Prop} (h : Reaches l m)
    (hl : ∀ t ∈ l.store.toList, Q t)
    (hsegment : ∀ k lead word rest found, Reaches l k →
      Segment (Name.wordBody k.table) k.mode lead word rest found →
        k.rest = lead ++ word ++ rest →
          ∀ t ∈ segmentTokens k.file k.position lead word found, Q t) :
    ∀ t ∈ m.store.toList, Q t := by
  refine h.invariant (P := fun k ↦ ∀ t ∈ k.store.toList, Q t) hl ?_ ?_
  · intro k lead word rest found hreach hk hhead hrest t ht
    rw [toList_store_advance] at ht
    rcases List.mem_append.mp ht with hold | hnew
    · exact hk t hold
    · exact hsegment k lead word rest found hreach hhead hrest t hnew
  · intro k passed rest hk _
    rw [toList_store_advance, List.append_nil]
    exact hk

end AsmLexer.Lexer
