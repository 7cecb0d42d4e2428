import AsmLexer.Proofs.Exposure
import AsmLexer.Proofs.Translation

/-!
# Running on

A lexer that has stopped goes on from where it stands, and all that counts is the text in front of
it. Its next run is the first run over that text alone, moved to where the text begins.
-/

namespace AsmLexer

/-- Where `p` is if its text begins at `base`. In the first row the columns move as well. -/
def Position.beyond (base p : Position) : Position :=
  ⟨p.offset + base.offset, p.row + base.row, if p.row = 0 then p.column + base.column else p.column⟩

namespace Position

variable (base p : Position)

@[simp] theorem beyond_origin : base.beyond origin = base := by
  simp [beyond, origin]

-- Above row 0 a line feed could lead into the first row, where the columns move too.
theorem beyond_nextLine (hrow : 0 ≤ p.row) :
    base.beyond p.nextLine = (base.beyond p).nextLine := by
  have hnext : p.row + 1 ≠ 0 := by omega
  simp only [beyond, nextLine, hnext, if_false, mk.injEq, and_true]
  constructor <;> omega

theorem keepsLines_beyond : KeepsLines base.beyond := by
  intro p count
  simp only [beyond, right, mk.injEq, true_and]
  constructor
  · omega
  · split <;> omega

end Position

namespace Lexer

variable (base l : Lexer)

/-- The lexer `l` of a text that begins where `base` stands, with the tokens of `base` kept. -/
def beyond : Lexer :=
  l.moved base.position.beyond base.store.toList l.rest

@[simp] theorem beyond_start : l.beyond (start l.table l.mode l.file l.rest) = l := by
  simp [beyond, Lexer.moved, start, TokenStore.toList]

theorem row_le_row_after (r : Reading) : l.position.row ≤ (l.after r).position.row := by
  cases r with
  | lineFeed => exact Int.le_add_of_nonneg_right (by decide)
  | _ => exact Int.le_refl _

theorem after_beyond (hrow : 0 ≤ l.position.row) (r : Reading) :
    (base.beyond l).after r = base.beyond (l.after r) := by
  rw [beyond, beyond, rest_after]
  by_cases hr : r = .lineFeed
  · subst hr
    exact after_lineFeed_moved l _ _ (base.position.beyond_nextLine _ hrow)
  · exact after_moved l _ _ base.position.keepsLines_beyond hr

theorem outcome?_beyond (r : Reading) :
    (base.beyond l).outcome? r = (l.outcome? r).map (Outcome.moved base.position.beyond) :=
  outcome?_moved l _ _ base.position.keepsLines_beyond r

/-- The run of a lexer that is moved is its run, moved. -/
theorem run_beyond (hrow : 0 ≤ l.position.row) :
    (base.beyond l).run = (l.run.1.moved base.position.beyond, base.beyond l.run.2) := by
  induction l using run.induct with
  | case1 l hrest =>
      rw [run_of_rest_eq_nil hrest]
      exact run_of_rest_eq_nil hrest
  | case2 l c cs hrest outcome hstop =>
      have hstop' := base.outcome?_beyond l (Reading.next l.table l.mode c cs)
      rw [hstop] at hstop'
      rw [run_of_outcome?_eq_some hrest hstop, ← after_beyond base l hrow]
      exact run_of_outcome?_eq_some hrest hstop'
  | case3 l c cs hrest hstop ih =>
      have hstop' := base.outcome?_beyond l (Reading.next l.table l.mode c cs)
      rw [hstop] at hstop'
      have hrun : (base.beyond l).run =
          ((base.beyond l).after (Reading.next l.table l.mode c cs)).run :=
        run_of_outcome?_eq_none hrest hstop'
      have hrow' := Int.le_trans hrow (l.row_le_row_after (Reading.next l.table l.mode c cs))
      rw [run_of_outcome?_eq_none hrest hstop, hrun, after_beyond base l hrow, ih hrow']

theorem run_eq_moved_run_start :
    l.run = ((start l.table l.mode l.file l.rest).run.1.moved l.position.beyond,
      l.beyond (start l.table l.mode l.file l.rest).run.2) := by
  have hrun := l.run_beyond (start l.table l.mode l.file l.rest) (Int.le_refl 0)
  rwa [beyond_start] at hrun

/-- However often a lexer has been run, its next run is a first run over what is left of the text:
the outcome, the new tokens and the last position are those of that run, moved to where the lexer
stands. The tokens it has are kept. -/
theorem run_runs (table : InstructionTable) (mode : NumericMode) (file : Handle)
    (text : List Char) (n : Nat) :
    let l := (start table mode file text).runs n
    let fresh := start table mode file (text.drop l.position.offset.toNat)
    l.run.1 = fresh.run.1.moved l.position.beyond ∧
      l.run.2.store.toList =
        l.store.toList ++ fresh.run.2.store.toList.map (Token.moved l.position.beyond) ∧
      l.run.2.position = l.position.beyond fresh.run.2.position := by
  intro l fresh
  have hreach := (start table mode file text).reaches_runs n
  have hrest := ((standsIn_start table mode file text).of_reaches hreach).drop_offset
  have hfresh : fresh = start l.table l.mode l.file l.rest := by
    rw [hreach.table_eq, hreach.mode_eq, hreach.file_eq, ← hrest]
    rfl
  rw [l.run_eq_moved_run_start, ← hfresh]
  exact ⟨rfl, toList_store_moved _ _ _, rfl⟩

end Lexer

end AsmLexer
