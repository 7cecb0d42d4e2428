import AsmLexer.Proofs.Exposure
import AsmLexer.Proofs.LineEndings
import AsmLexer.Proofs.Lines

/-!
# Comments

The sign that opens a comment goes on with no lexeme, so a comment at the end of a line stops what
stands before it just as the end of the line does. Within a comment it only makes that one longer.
All that a comment changes is the offsets behind it, and that the text does not end where it
stands: a register that was cut off by the end is a wrong register then.
-/

namespace AsmLexer

open Text Grammar Position

/-- Where a position is when there are `length` characters more in a line, behind the first `offset`
characters of the text. -/
def Position.behind (offset length : Nat) (p : Position) : Position :=
  if offset < p.offset then ⟨p.offset + length, p.row, p.column⟩ else p

/-- The result for a text that is not at its end when `text` is over. -/
def Tokenized.closed (file : Handle) (text : List Char) : Tokenized → Tokenized
  | .error (.atPoint .registerAtEnd p) => .error (.over .register ⟨p, origin.past text, file⟩)
  | result => result

/-! ## The places of a result -/

def Tokenized.positions : Tokenized → List Position
  | .tokens list => list.flatMap fun t ↦ [t.range.start, t.range.stop]
  | .error e => e.positions
  | .unsupported cause => [cause.position]

theorem isPlace_of_mem_positions (table : InstructionTable) (mode : NumericMode) (file : Handle)
    (text : List Char) :
    ∀ p ∈ (tokenize table mode file text).positions, IsPlace text p := by
  have hstart := Lexer.standsIn_start table mode file text
  have hstop := Lexer.isPlace_of_run hstart
  have hnone : ∀ t ∈ (Lexer.start table mode file text).store.toList, t.Covers text file := by
    intro t ht
    cases ht
  have htokens := Lexer.covers_of_reaches (Lexer.reaches_run _) hstart hnone
  unfold tokenize
  generalize (Lexer.start table mode file text).run = result at hstop htokens
  obtain ⟨outcome, l⟩ := result
  cases outcome with
  | finished =>
      intro p hp
      obtain ⟨t, ht, hend⟩ := List.mem_flatMap.mp hp
      obtain ⟨hfirst, hlast⟩ := (htokens t ht).isPlace
      rcases List.mem_cons.mp hend with rfl | hend
      · exact hfirst
      · obtain rfl := List.mem_singleton.mp hend
        exact hlast
  | failed e => exact hstop
  | unsupported cause => exact hstop

section

variable {f g : Position → Position}

theorem LexError.moved_congr {e : LexError} (h : ∀ p ∈ e.positions, f p = g p) :
    e.moved f = e.moved g := by
  cases e <;> simp_all [moved, positions, Range.moved]

theorem Tokenized.moved_congr {result : Tokenized} (h : ∀ p ∈ result.positions, f p = g p) :
    result.moved f = result.moved g := by
  cases result with
  | tokens list =>
      refine congrArg tokens (List.map_congr_left fun t ht ↦ ?_)
      have hstart := h t.range.start (List.mem_flatMap.mpr ⟨t, ht, by simp⟩)
      have hstop := h t.range.stop (List.mem_flatMap.mpr ⟨t, ht, by simp⟩)
      rw [Token.moved, Token.moved, Range.moved, Range.moved, hstart, hstop]
  | error e => exact congrArg error (LexError.moved_congr h)
  | unsupported cause =>
      have hposition := h cause.position (List.mem_singleton.mpr rfl)
      rw [moved, moved, Unsupported.moved, Unsupported.moved, hposition]

theorem Tokenized.moved_id (result : Tokenized) : result.moved id = result := by
  cases result with
  | tokens list => exact congrArg tokens (List.map_id list)
  | error e => cases e <;> rfl
  | unsupported cause => rfl

theorem Tokenized.moved_eq_self {result : Tokenized} (h : ∀ p ∈ result.positions, f p = p) :
    result.moved f = result :=
  (moved_congr h).trans result.moved_id

theorem Tokenized.moved_moved (result : Tokenized) :
    (result.moved f).moved g = result.moved (g ∘ f) := by
  cases result with
  | tokens list => exact congrArg tokens (List.map_map ..)
  | error e => cases e <;> rfl
  | unsupported cause => rfl

end

namespace Position

theorem behind_of_le {offset length : Nat} {p : Position} (h : p.offset ≤ offset) :
    p.behind offset length = p :=
  if_neg (Int.not_lt.mpr h)

/-- The lines below move by as much as the line above them gets longer. -/
theorem behind_below {above body : List Char} (hbody : '\n' ∉ body) {p : Position}
    (hp : 0 ≤ p.offset) :
    (p.below above).behind above.length (body.length + 1) = p.below (above ++ '#' :: body) := by
  have hlt : (above.length : Int) < (p.below above).offset := by
    simp only [below]
    omega
  have hcount : (above ++ '#' :: body).count '\n' = above.count '\n' := by
    have hcomment : '\n' ∉ '#' :: body := by simpa using hbody
    rw [List.count_append, List.count_eq_zero.mpr hcomment, Nat.add_zero]
  rw [behind, if_pos hlt, below, below, hcount, List.length_append, List.length_cons]
  simp only [mk.injEq, and_true]
  omega

end Position

/-! ## Segments and cuttings -/

section

variable {words : List Char → Token.Body} {mode : NumericMode} {file : Handle} {p : Position}
  {text body rest lead word : List Char} {tokens : List Token}

theorem Grammar.Segment.comment_of_head? {found : Option Token.Body}
    (h : Segment words mode lead word rest found) (hlead : lead.head? = some '#') :
    ∃ body, lead = '#' :: body ∧ word = [] ∧ found = none ∧ MaximalRun (· ≠ '\n') body rest := by
  cases h with
  | comment hrun => exact ⟨_, rfl, rfl, rfl, hrun⟩
  | blank _ hspace =>
      obtain rfl : _ = '#' := Option.some.inj hlead
      exact absurd hspace (by decide)
  | unsigned hmark => cases hmark <;> cases hlead
  | signed _ hmark => cases hmark <;> cases hlead
  | _ => cases hlead

theorem cut_comment (hbody : '\n' ∉ body) :
    Cut words mode file p ('#' :: body) ['#' :: body] [] [] := by
  have hrun : MaximalRun (· ≠ '\n') body [] := by
    refine ⟨?_, noneAhead_nil⟩
    intro c hc
    have hne : c ≠ '\n' := by
      rintro rfl
      exact hbody hc
    simpa using hne
  have htail : Cut words mode file (p.past ('#' :: body ++ [])) [] [] [] [] := .nil ..
  have hcut := Cut.cons (.comment hrun) htail
  rwa [List.append_nil, List.append_nil] at hcut

theorem stopsAlike_comment (body : List Char) : StopsAlike [] ('#' :: body) :=
  stopsAlike_nil_cons (by decide) (by decide) body

theorem Cut.tokens_eq_nil {pieces : List (List Char)} {rear : List Char}
    (h : Cut words mode file p [] pieces tokens rear) : tokens = [] := by
  generalize htext : [] = text at h
  cases h with
  | nil => rfl
  | cons hhead => exact absurd htext.symm (List.append_ne_nil_of_left_ne_nil hhead.append_ne_nil _)

/-- A text with a comment at its end has the same tokens. -/
theorem Cut.exists_comment {pieces : List (List Char)} (hbody : '\n' ∉ body)
    (h : Cut words mode file p text pieces tokens []) :
    ∃ more, Cut words mode file p (text ++ '#' :: body) more tokens [] := by
  generalize hrear : ([] : List Char) = rear at h
  induction h with
  | nil p rear =>
      subst hrear
      exact ⟨_, cut_comment hbody⟩
  | @cons p lead word rest rear found pieces tokens hhead htail ih =>
      by_cases hcomment : lead.head? = some '#' ∧ rest = []
      · -- The text ends within a comment, which takes in the new one.
        subst hrear
        obtain ⟨hlead, rfl⟩ := hcomment
        obtain ⟨front, rfl, rfl, rfl, hrun⟩ := hhead.comment_of_head? hlead
        obtain rfl := htail.tokens_eq_nil
        have hwhole : '\n' ∉ front ++ '#' :: body :=
          lineFeed_notMem_append (hrun.notMem (by decide)) (by simpa using hbody)
        rw [List.append_nil, List.append_nil]
        exact ⟨_, cut_comment hwhole⟩
      · obtain ⟨more, hmore⟩ := ih hrear
        have hhead' := hhead.replace ((stopsAlike_comment body).append_left rest) <| by
          intro hlead hstops
          obtain ⟨c, rest, rfl⟩ := List.exists_cons_of_ne_nil (not_and.mp hcomment hlead)
          exact noneAhead_cons.mpr (noneAhead_cons.mp hstops)
        rw [List.append_assoc]
        exact ⟨_, .cons hhead' hmore⟩

end

/-! ## Results -/

section

variable {words : List Char → Token.Body} {mode : NumericMode} {file : Handle}
  {text body : List Char} {result first second : Tokenized}

theorem Tokenized.closed_eq_self (hend : ∀ q, result ≠ .error (.atPoint .registerAtEnd q)) :
    result.closed file text = result := by
  unfold closed
  split
  · exact absurd rfl (hend _)
  · rfl

theorem Tokenized.closed_error {e : LexError} (hend : ∀ q, e ≠ .atPoint .registerAtEnd q) :
    (error e).closed file text = error e :=
  closed_eq_self fun q herror ↦ hend q (Tokenized.error.inj herror)

theorem Yields.comment (hbody : '\n' ∉ body) (h : Yields words mode file text result) :
    Yields words mode file (text ++ '#' :: body) (result.closed file text) := by
  have hstops := stopsAlike_comment body
  cases h with
  | tokens hcut =>
      obtain ⟨more, hmore⟩ := hcut.exists_comment hbody
      exact .tokens hmore
  | @error pieces tokens rear e hcut herror =>
      have hcut' := hcut.append (sameAhead_of_ne_nil herror.ne_nil ('#' :: body))
      by_cases hend : ∃ q, e = .atPoint .registerAtEnd q
      · obtain ⟨q, rfl⟩ := hend
        have hregister := herror.register_of_registerAtEnd hstops (List.cons_ne_nil _ _)
        rw [← past_append, ← hcut.text_eq] at hregister
        exact .error hcut' hregister
      · rw [Tokenized.closed_error (not_exists.mp hend)]
        exact .error hcut' (herror.append hstops (not_exists.mp hend))
  | unsupported hcut hfloat =>
      have hcut' := hcut.append (sameAhead_of_ne_nil hfloat.append_ne_nil ('#' :: body))
      rw [List.append_assoc] at hcut'
      exact .unsupported hcut' (hfloat.append hstops)

theorem Tokenized.joinLines_closed {above : List Char} (hbody : '\n' ∉ body)
    (hfirst : ∀ p ∈ first.positions, p.offset ≤ above.length)
    (hsecond : ∀ p ∈ second.positions, 0 ≤ p.offset) :
    (first.closed file above).joinLines file (above ++ '#' :: body) second =
      (first.joinLines file above second).moved (behind above.length (body.length + 1)) := by
  have hself : first.moved (behind above.length (body.length + 1)) = first :=
    moved_eq_self fun p hp ↦ behind_of_le (hfirst p hp)
  have hbelow : second.moved (below (above ++ '#' :: body)) =
      (second.moved (below above)).moved (behind above.length (body.length + 1)) := by
    rw [moved_moved]
    exact moved_congr fun p hp ↦ (behind_below hbody (hsecond p hp)).symm
  cases first with
  | tokens front =>
      cases second with
      | tokens rear =>
          have hfront := Tokenized.tokens.inj hself
          have hrear := Tokenized.tokens.inj hbelow
          simp only [closed, joinLines, moved, List.map_append]
          rw [hfront, hrear]
      | error e => exact hbelow
      | unsupported cause => exact hbelow
  | error e =>
      by_cases hend : ∃ q, e = .atPoint .registerAtEnd q
      · obtain ⟨q, rfl⟩ := hend
        have hq : q.offset ≤ above.length := hfirst q (List.mem_singleton.mpr rfl)
        have hstop : (origin.past above).offset ≤ above.length :=
          Int.le_of_eq (offset_past_origin above)
        simp only [closed, joinLines, moved, LexError.moved, Range.moved, behind_of_le hq,
          behind_of_le hstop]
      · have hend' := not_exists.mp hend
        rw [closed_error hend', joinLines_error hend', joinLines_error hend', hself]
  | unsupported cause => exact hself.symm

end

/-- A comment at the end of a line changes nothing but the offsets behind it. Only where it stands
at the end of the whole text, and behind a register that is cut off there, it makes another error:
the name that ends in front of it is not that of a register. -/
theorem tokenize_comment (table : InstructionTable) (mode : NumericMode) (file : Handle)
    (text : List Char) {body rest : List Char} (hbody : '\n' ∉ body)
    (hrest : NoneAhead (· ≠ '\n') rest) :
    (∀ p, rest = [] → tokenize table mode file text = .error (.atPoint .registerAtEnd p) →
        tokenize table mode file (text ++ '#' :: (body ++ rest)) =
          .error (.over .register ⟨p, origin.past text, file⟩)) ∧
      ((∀ p, rest = [] → tokenize table mode file text ≠ .error (.atPoint .registerAtEnd p)) →
        tokenize table mode file (text ++ '#' :: (body ++ rest)) =
          (tokenize table mode file (text ++ rest)).moved
            (behind text.length (body.length + 1))) := by
  have htext := yields_tokenize table mode file text
  have hplaces := isPlace_of_mem_positions table mode file text
  have hoffsets : ∀ p ∈ (tokenize table mode file text).positions, p.offset ≤ text.length :=
    fun p hp ↦ (hplaces p hp).faithful.le_length
  cases rest with
  | nil =>
      have hcomment := tokenize_eq_of_yields (htext.comment hbody)
      rw [List.append_nil, List.append_nil, hcomment]
      refine ⟨?_, ?_⟩
      · intro p _ herror
        rw [herror]
        rfl
      · intro hend
        rw [Tokenized.closed_eq_self fun q ↦ hend q rfl]
        exact (Tokenized.moved_eq_self fun p hp ↦ behind_of_le (hoffsets p hp)).symm
  | cons c below =>
      obtain rfl : c = '\n' := by simpa using hrest
      refine ⟨fun _ hnil ↦ absurd hnil (List.cons_ne_nil _ _), fun _ ↦ ?_⟩
      have hbelow := yields_tokenize table mode file below
      have hplain := tokenize_eq_of_yields (htext.joinLines hbelow)
      have hcomment := tokenize_eq_of_yields ((htext.comment hbody).joinLines hbelow)
      rw [List.append_assoc, List.cons_append] at hcomment
      rw [hplain, hcomment]
      refine Tokenized.joinLines_closed hbody hoffsets ?_
      exact fun p hp ↦ (isPlace_of_mem_positions _ _ _ _ p hp).faithful.nonneg

/-- Behind a cut off register the comment makes another error; behind a comment it only moves the
line below. -/
theorem tokenize_comment_unfinished :
    tokenize .standard .unsigned 0 ("ret $rs".toList ++ '#' :: ("p".toList ++ [])) =
        .error (.over .register ⟨⟨5, 0, 5⟩, ⟨7, 0, 7⟩, 0⟩) ∧
      tokenize .standard .unsigned 0
          ("ret #".toList ++ '#' :: ("$".toList ++ '\n' :: "ret".toList)) =
        .tokens [⟨.opcode 68, ⟨⟨0, 0, 0⟩, ⟨3, 0, 3⟩, 0⟩⟩,
          ⟨.opcode 68, ⟨⟨8, 1, 0⟩, ⟨11, 1, 3⟩, 0⟩⟩] := by
  have hregister : tokenize .standard .unsigned 0 "ret $rs".toList =
      .error (.atPoint .registerAtEnd ⟨5, 0, 5⟩) := by
    decide +kernel
  have htokens : tokenize .standard .unsigned 0 ("ret #".toList ++ '\n' :: "ret".toList) =
      .tokens [⟨.opcode 68, ⟨⟨0, 0, 0⟩, ⟨3, 0, 3⟩, 0⟩⟩,
        ⟨.opcode 68, ⟨⟨6, 1, 0⟩, ⟨9, 1, 3⟩, 0⟩⟩] := by
    decide +kernel
  obtain ⟨hend, -⟩ := tokenize_comment .standard .unsigned 0 "ret $rs".toList
    (by decide : '\n' ∉ "p".toList) noneAhead_nil
  obtain ⟨-, hline⟩ := tokenize_comment .standard .unsigned 0 "ret #".toList
    (by decide : '\n' ∉ "$".toList) (sameAhead_lineFeed [] "ret".toList rfl)
  refine ⟨hend _ rfl hregister, ?_⟩
  rw [hline fun _ hnil ↦ absurd hnil (by decide), htokens]
  rfl

end AsmLexer
