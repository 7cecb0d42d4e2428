import AsmLexer.Proofs.CursorMoves
import AsmLexer.Proofs.Exposure

/-!
# The cursor under the lexer

A lexer keeps what is left of its text. The same can be said with a cursor over the whole text,
which a reading moves on character by character: what the lexer looks at is in front of the cursor,
and what it reports is behind it. The lexer never tells its cursor a lie about a line feed.
-/

namespace AsmLexer

open Grammar Position

namespace Cursor

variable {text passed rest : List Char}

/-- The moves over characters that tell the cursor the truth. -/
def movesOver (passed : List Char) : List Move :=
  passed.map fun c ↦ if c = '\n' then .advanceLine else .advance

theorem movesOver_eq_replicate (h : '\n' ∉ passed) :
    movesOver passed = List.replicate passed.length .advance := by
  apply List.eq_replicate_iff.mpr
  refine ⟨List.length_map .., ?_⟩
  intro m hm
  obtain ⟨c, hc, rfl⟩ := List.mem_map.mp hm
  have hne : c ≠ '\n' := fun hline ↦ h (hline ▸ hc)
  exact if_neg hne

theorem movesOver_append (front back : List Char) :
    movesOver (front ++ back) = movesOver front ++ movesOver back :=
  List.map_append

theorem disciplined_movesOver (file : Handle) (htext : text = passed ++ rest) :
    Disciplined text file (movesOver passed) := by
  induction passed using List.reverseRecOn generalizing rest with
  | nil => exact disciplined_nil
  | append_singleton passed c ih =>
      rw [List.append_assoc] at htext
      have hcurrent : (walk text file (movesOver passed)).current = some c := by
        rw [current_walk, movesOver, List.length_map, htext]
        simp
      rw [movesOver_append]
      refine disciplined_append_singleton.mpr ⟨ih htext, ?_⟩
      rw [hcurrent, Option.some.injEq]
      by_cases hline : c = '\n' <;> simp [hline]

theorem foldl_move_replicate (c : Cursor) (count : Nat) :
    (List.replicate count Move.advance).foldl move c =
      { c with position := c.position.right count } := by
  induction count with
  | zero => simp
  | succ count ih =>
      rw [List.replicate_succ', List.foldl_append, ih, ← right_right]
      rfl

/-- The range of as many characters as were stepped over begins where the steps began. -/
theorem rangeOfLast_eq_rangeFrom {c : Cursor} {start : Position} {count : Nat}
    (h : c.position = start.right count) : c.rangeOfLast count = c.rangeFrom start := by
  rw [rangeOfLast, h]
  simp [right]

end Cursor

/-! ## One reading -/

namespace Reading

/-- How a reading moves the cursor: it steps over all that it reads. -/
def moves : Reading → List Cursor.Move
  | .lineFeed => [.advanceLine]
  | reading => List.replicate reading.consumed .advance

/-- The token of a reading, for a cursor behind it. -/
def tokens (c : Cursor) : Reading → List Token
  | .token body _ length => [⟨body, c.rangeOfLast length⟩]
  | _ => []

/-- What stops a run, for a cursor before the reading and one behind it. -/
def outcome? (before behind : Cursor) : Reading → Option Outcome
  | .unexpected c => some (.failed (.unexpected (String.singleton c) behind.position))
  | .atPoint fault lead _ =>
      let place := (List.replicate lead Cursor.Move.advance).foldl Cursor.move before
      some (.failed (.atPoint fault place.position))
  | .over fault _ length => some (.failed (.over fault (behind.rangeOfLast length)))
  | .float _ => some (.unsupported (.floatLiteral behind.position))
  | _ => none

variable {words : List Char → Token.Body} {mode : NumericMode} {text : List Char} {r : Reading}

theorem moves_eq_replicate (h : r ≠ .lineFeed) : r.moves = List.replicate r.consumed .advance := by
  cases r with
  | lineFeed => exact absurd rfl h
  | _ => rfl

theorem moves_segmentReading {lead word rest : List Char} {found : Option Token.Body}
    (h : Segment words mode lead word rest found) :
    (segmentReading lead word found).moves = Cursor.movesOver (lead ++ word) := by
  rcases h.line_cases with ⟨rfl, rfl, rfl⟩ | hline
  · rfl
  · rw [Cursor.movesOver_eq_replicate hline, List.length_append, ← h.consumed_reading]
    have hlead : '\n' ∉ lead := fun hmem ↦ hline (List.mem_append_left word hmem)
    exact moves_eq_replicate (segmentReading_ne_lineFeed hlead)

/-- Where a text is read, the cursor is told the truth about what is passed. -/
theorem exists_movesOver (h : Reads words mode text r) :
    ∃ passed rest, text = passed ++ rest ∧ passed.length = r.consumed ∧
      r.moves = Cursor.movesOver passed := by
  cases h with
  | @segment lead word rest found h =>
      refine ⟨lead ++ word, rest, rfl, ?_, moves_segmentReading h⟩
      rw [h.consumed_reading, List.length_append]
  | unexpected rest h => exact ⟨[], _, rfl, rfl, rfl⟩
  | @missing fault lead passed rest h =>
      refine ⟨lead ++ passed, rest, rfl, List.length_append, ?_⟩
      rw [Cursor.movesOver_eq_replicate h.lineFeed_notMem, List.length_append]
      rfl
  | @fault fault lead span rest h =>
      refine ⟨lead ++ span, rest, rfl, List.length_append, ?_⟩
      rw [Cursor.movesOver_eq_replicate h.lineFeed_notMem, List.length_append]
      rfl
  | @float lead rest h =>
      refine ⟨lead, rest, rfl, rfl, ?_⟩
      rw [Cursor.movesOver_eq_replicate h.lineFeed_notMem]
      rfl

end Reading

namespace Lexer

/-- The cursor over the whole text that stands where the lexer does. -/
def cursor (text : List Char) (l : Lexer) : Cursor :=
  { text, file := l.file, position := l.position }

variable {l m : Lexer} {text : List Char}

/-! ## In front of the cursor -/

theorem StandsIn.peek_cursor (h : StandsIn text l) (ahead : Nat) :
    (l.cursor text).peek ahead = l.rest[ahead]? := by
  obtain ⟨front, rfl, hposition⟩ := h
  have hoffset : l.position.offset + ahead = Int.ofNat (front.length + ahead) := by
    rw [hposition, offset_past_origin]
    rfl
  simp only [Cursor.peek, cursor, hoffset, List.getElem?_append_right, Nat.le_add_right,
    Nat.add_sub_cancel_left]

theorem StandsIn.current_cursor (h : StandsIn text l) : (l.cursor text).current = l.rest.head? :=
  (h.peek_cursor 0).trans List.head?_eq_getElem?.symm

theorem StandsIn.remaining_cursor (h : StandsIn text l) :
    (l.cursor text).remaining = l.rest.length := by
  have hlength := h.offset_add_length
  simp only [Cursor.remaining, cursor]
  omega

theorem StandsIn.isAtEnd_cursor (h : StandsIn text l) :
    (l.cursor text).isAtEnd = l.isFinished := by
  have hlength := h.offset_add_length
  have hiff : (text.length : Int) ≤ l.position.offset ↔ l.rest.length = 0 := by omega
  rw [isFinished, Bool.eq_iff_iff, List.isEmpty_iff, ← List.length_eq_zero_iff, ← hiff]
  exact decide_eq_true_iff

/-! ## Behind the cursor -/

theorem cursor_after (text : List Char) (l : Lexer) (r : Reading) :
    (l.after r).cursor text = r.moves.foldl Cursor.move (l.cursor text) := by
  cases r with
  | lineFeed => rfl
  | token body lead length =>
      rw [Reading.moves_eq_replicate (by simp), Cursor.foldl_move_replicate, Reading.consumed,
        ← right_right]
      rfl
  | _ =>
      rw [Reading.moves_eq_replicate (by simp), Cursor.foldl_move_replicate]
      rfl

theorem toList_store_after (text : List Char) (l : Lexer) (r : Reading) :
    (l.after r).store.toList = l.store.toList ++ r.tokens ((l.after r).cursor text) := by
  cases r with
  | token body lead length =>
      have hposition : ((l.after (.token body lead length)).cursor text).position =
          (l.position.right lead).right length := rfl
      rw [Reading.tokens, Cursor.rangeOfLast_eq_rangeFrom hposition]
      exact TokenStore.toList_push ..
  | _ => exact (List.append_nil _).symm

theorem outcome?_over_eq_cursor (text : List Char) (l : Lexer) (fault : SpanFault)
    (lead length : Nat) :
    l.outcome? (.over fault lead length) =
      some (.failed (.over fault
        (((l.after (.over fault lead length)).cursor text).rangeOfLast length))) := by
  have hposition : ((l.after (.over fault lead length)).cursor text).position =
      (l.position.right lead).right length := (right_right ..).symm
  rw [Cursor.rangeOfLast_eq_rangeFrom hposition, Cursor.rangeFrom, hposition]
  rfl

/-- What stops a run is where the cursor stands, or the range of the last characters it has
passed. -/
theorem outcome?_eq_cursor (text : List Char) (l : Lexer) (r : Reading) :
    l.outcome? r = r.outcome? (l.cursor text) ((l.after r).cursor text) := by
  cases r with
  | lineFeed | blank | token | float => rfl
  | unexpected c =>
      rw [cursor_after]
      rfl
  | atPoint fault lead consumed =>
      rw [Reading.outcome?, Cursor.foldl_move_replicate]
      rfl
  | _ => exact outcome?_over_eq_cursor ..

/-- The word of a segment is the text of the last characters when the segment has been passed. -/
theorem StandsIn.textOfLast_after {lead word rest : List Char} {found : Option Token.Body}
    (h : StandsIn text l) (hsegment : Segment (Name.wordBody l.table) l.mode lead word rest found)
    (hrest : l.rest = lead ++ word ++ rest) :
    ((l.after (segmentReading lead word found)).cursor text).textOfLast word.length = word := by
  obtain ⟨front, rfl, hposition⟩ := h
  rw [after_segment hsegment hrest]
  apply @Cursor.textOfLast_eq _ (front ++ lead) word rest
  · rw [cursor, hrest]
    simp only [List.append_assoc]
  · change (l.position.past (lead ++ word)).offset = _
    rw [hposition, ← past_append, offset_past_origin, List.append_assoc]

/-! ## All readings -/

/-- The moves of all readings on the way from one state to another. -/
inductive Drives (l : Lexer) : List Cursor.Move → Lexer → Prop
  | refl : Drives l [] l
  | step {m : Lexer} {moves : List Cursor.Move} {c : Char} {cs : List Char}
      (hdrives : Drives l moves m) (hrest : m.rest = c :: cs) :
      Drives l (moves ++ (Reading.next m.table m.mode c cs).moves)
        (m.after (Reading.next m.table m.mode c cs))

theorem Reaches.exists_drives (h : Reaches l m) : ∃ moves, Drives l moves m := by
  induction h with
  | refl => exact ⟨[], .refl⟩
  | step _ hrest ih =>
      obtain ⟨moves, hdrives⟩ := ih
      exact ⟨_, hdrives.step hrest⟩

theorem Drives.cursor_eq {moves : List Cursor.Move} (h : Drives l moves m) (text : List Char) :
    m.cursor text = moves.foldl Cursor.move (l.cursor text) := by
  induction h with
  | refl => rfl
  | step _ _ ih => rw [cursor_after, ih, List.foldl_append]

/-- On the way the cursor is told the truth about all characters that are passed. -/
theorem Drives.exists_passed {moves : List Cursor.Move} (h : Drives l moves m) :
    ∃ passed, l.rest = passed ++ m.rest ∧ moves = Cursor.movesOver passed := by
  induction h with
  | refl => exact ⟨[], rfl, rfl⟩
  | @step m moves c cs _ hrest ih =>
      obtain ⟨front, hfront, rfl⟩ := ih
      obtain ⟨passed, rest, htext, hlength, hmoves⟩ :=
        Reading.exists_movesOver (Reading.reads_next m.table m.mode c cs)
      have hrest' : (m.after (Reading.next m.table m.mode c cs)).rest = rest := by
        rw [rest_after, hrest, htext, ← hlength, List.drop_left]
      refine ⟨front ++ passed, ?_, ?_⟩
      · rw [hfront, hrest, htext, hrest', List.append_assoc]
      · rw [hmoves, Cursor.movesOver_append]

section

variable {table : InstructionTable} {mode : NumericMode} {file : Handle}
  {moves : List Cursor.Move}

/-- Each token has the range of the last characters at some point of the way. -/
theorem Drives.exists_rangeOfLast (h : Drives (start table mode file text) moves m) :
    ∀ t ∈ m.store.toList, ∃ before, before <+: moves ∧
      ∃ length : Nat, t.range = (Cursor.walk text file before).rangeOfLast length := by
  induction h with
  | refl =>
      intro t ht
      cases ht
  | @step m moves c cs hdrives hrest ih =>
      intro t ht
      rw [toList_store_after text] at ht
      rcases List.mem_append.mp ht with hold | hnew
      · obtain ⟨before, hbefore, hrange⟩ := ih t hold
        exact ⟨before, List.prefix_append_of_prefix hbefore, hrange⟩
      · have hcursor := (hdrives.step hrest).cursor_eq text
        generalize Reading.next m.table m.mode c cs = r at hnew hcursor ⊢
        cases r with
        | token body lead length =>
            obtain rfl := List.mem_singleton.mp hnew
            exact ⟨_, List.prefix_refl _, length, congrArg (·.rangeOfLast length) hcursor⟩
        | _ => cases hnew

/-- However often a lexer is run, the moves of its readings lead its cursor there from the beginning
of the text. Each line feed is stepped over as such and nothing else is, all positions on the way
are faithful, and each token has the range of the last characters at some point of the way. -/
theorem exists_drives_runs (table : InstructionTable) (mode : NumericMode) (file : Handle)
    (text : List Char) (n : Nat) :
    ∃ moves, Drives (start table mode file text) moves ((start table mode file text).runs n) ∧
      ((start table mode file text).runs n).cursor text = Cursor.walk text file moves ∧
      Cursor.Disciplined text file moves ∧ Cursor.StaysFaithful text file moves ∧
      ∀ t ∈ ((start table mode file text).runs n).store.toList, ∃ before, before <+: moves ∧
        ∃ length : Nat, t.range = (Cursor.walk text file before).rangeOfLast length := by
  obtain ⟨moves, hdrives⟩ := (reaches_runs (start table mode file text) n).exists_drives
  obtain ⟨passed, htext, rfl⟩ := hdrives.exists_passed
  have hdisciplined := Cursor.disciplined_movesOver file htext
  have hwithin : (Cursor.movesOver passed).length ≤ text.length := by
    rw [Cursor.movesOver, List.length_map, show text = _ from htext, List.length_append]
    exact Nat.le_add_right ..
  exact ⟨_, hdrives, hdrives.cursor_eq text, hdisciplined,
    (Cursor.staysFaithful_iff hwithin).mpr hdisciplined, hdrives.exists_rangeOfLast⟩

end

end Lexer

end AsmLexer
