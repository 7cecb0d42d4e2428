import AsmLexer.Proofs.TokenStream

/-!
# The segment of a token

A cutting can be split in front of any of its tokens, and the offset where a token begins tells
which segment it is from: there is only one way to come to it.
-/

namespace AsmLexer

open Grammar Position

/-- The characters between two places of a text. -/
theorem Text.slice_past (front lead word rest : List Char) :
    slice (front ++ (lead ++ word ++ rest)) ((origin.past front).past lead).offset
      ((origin.past front).past (lead ++ word)).offset = word := by
  have hstart : ((origin.past front).past lead).offset = (front ++ lead).length := by
    rw [← past_append, offset_past_origin]
  have hstop : ((origin.past front).past (lead ++ word)).offset =
      (front ++ lead ++ word).length := by
    rw [← past_append, offset_past_origin, List.append_assoc]
  have htext : front ++ (lead ++ word ++ rest) = front ++ lead ++ word ++ rest := by
    simp only [List.append_assoc]
  rw [hstart, hstop, htext, slice_append]

/-- The token of a segment with the characters `lead` and `word` that stands at `p`. -/
def segmentToken (file : Handle) (p : Position) (lead word : List Char) (body : Token.Body) :
    Token :=
  ⟨body, ⟨p.past lead, p.past (lead ++ word), file⟩⟩

/-- The characters of the text that a token covers. -/
def Token.chars (text : List Char) (t : Token) : List Char :=
  Text.slice text t.range.start.offset t.range.stop.offset

theorem chars_segmentToken (file : Handle) (front lead word rest : List Char)
    (body : Token.Body) :
    (segmentToken file (origin.past front) lead word body).chars
      (front ++ (lead ++ word ++ rest)) = word :=
  Text.slice_past front lead word rest

theorem Position.past_flatten_cons (p : Position) (piece : List Char)
    (pieces : List (List Char)) :
    p.past (piece :: pieces).flatten = (p.past piece).past pieces.flatten := by
  rw [List.flatten_cons, past_append]

section

variable {words : List Char → Token.Body} {mode : NumericMode} {file : Handle} {p : Position}
  {text rear : List Char} {pieces : List (List Char)}

theorem Cut.chars_segmentToken {lead word rest : List Char} {tokens : List Token}
    (h : Cut words mode file origin text pieces tokens (lead ++ word ++ rest))
    (body : Token.Body) :
    (segmentToken file (origin.past pieces.flatten) lead word body).chars text = word := by
  rw [h.text_eq, AsmLexer.chars_segmentToken]

/-- The cutting up to one of its tokens. -/
theorem Cut.split {front back : List Token} {t : Token}
    (h : Cut words mode file p text pieces (front ++ t :: back) rear) :
    ∃ frontPieces lead word rest body,
      Cut words mode file p text frontPieces front (lead ++ word ++ rest) ∧
        Segment words mode lead word rest (some body) ∧
          t = segmentToken file (p.past frontPieces.flatten) lead word body := by
  generalize htokens : front ++ t :: back = tokens at h
  induction h generalizing front with
  | nil => simp at htokens
  | @cons p lead word rest rear found pieces tokens hhead htail ih =>
      cases found with
      | none =>
          obtain ⟨frontPieces, lead', word', rest', body, hcut, hsegment, ht⟩ := ih htokens
          rw [← past_flatten_cons] at ht
          exact ⟨_, _, _, _, _, .cons hhead hcut, hsegment, ht⟩
      | some body =>
          cases front with
          | nil =>
              obtain ⟨rfl, -⟩ := List.cons.inj htokens
              exact ⟨[], _, _, _, _, .nil .., hhead, rfl⟩
          | cons u front =>
              obtain ⟨rfl, hbehind⟩ := List.cons.inj htokens
              obtain ⟨frontPieces, lead', word', rest', body', hcut, hsegment, ht⟩ := ih hbehind
              rw [← past_flatten_cons] at ht
              exact ⟨_, _, _, _, _, .cons hhead hcut, hsegment, ht⟩

end

/-! ## Only one way -/

section

variable {table : InstructionTable} {mode : NumericMode} {file : Handle} {p : Position}
  {text rear₁ rear₂ : List Char} {pieces₁ pieces₂ : List (List Char)} {tokens₁ tokens₂ : List Token}

/-- Of two cuttings of a text one goes on where the other ends. -/
theorem Cut.comparable (h₁ : Cut (Name.wordBody table) mode file p text pieces₁ tokens₁ rear₁)
    (h₂ : Cut (Name.wordBody table) mode file p text pieces₂ tokens₂ rear₂) :
    (∃ between tokens, pieces₂ = pieces₁ ++ between ∧
      Cut (Name.wordBody table) mode file (p.past pieces₁.flatten) rear₁ between tokens rear₂) ∨
    ∃ between tokens, pieces₁ = pieces₂ ++ between ∧
      Cut (Name.wordBody table) mode file (p.past pieces₂.flatten) rear₂ between tokens rear₁ := by
  induction h₁ generalizing pieces₂ tokens₂ with
  | nil => exact .inl ⟨_, _, rfl, h₂⟩
  | @cons p lead word rest rear found pieces tokens hhead htail ih =>
      generalize htext : lead ++ word ++ rest = text at h₂
      cases h₂ with
      | nil =>
          subst htext
          exact .inr ⟨_, _, rfl, .cons hhead htail⟩
      | cons hhead' htail' =>
          obtain ⟨rfl, rfl, rfl, rfl⟩ := hhead.unique hhead' htext
          rw [past_flatten_cons, past_flatten_cons]
          rcases ih htail' with ⟨between, us, rfl, hcut⟩ | ⟨between, us, rfl, hcut⟩
          · exact .inl ⟨between, us, rfl, hcut⟩
          · exact .inr ⟨between, us, rfl, hcut⟩

variable {lead₁ word₁ rest₁ lead₂ word₂ rest₂ : List Char} {body₁ body₂ : Token.Body}

/-- A cutting that goes on over the segment of a token comes to no other token that begins there. -/
theorem Cut.eq_nil_of_length_eq {between : List (List Char)} {tokens : List Token}
    (h₁ : Segment (Name.wordBody table) mode lead₁ word₁ rest₁ (some body₁))
    (hcut : Cut (Name.wordBody table) mode file p (lead₁ ++ word₁ ++ rest₁) between tokens rear₂)
    (hlength : lead₁.length = between.flatten.length + lead₂.length) : between = [] := by
  generalize htext : lead₁ ++ word₁ ++ rest₁ = text at hcut
  cases hcut with
  | nil => rfl
  | cons hhead _ =>
      obtain ⟨rfl, rfl, -, -⟩ := h₁.unique hhead htext
      have hword : word₁ ≠ [] := by
        intro hnil
        cases h₁.word_eq_nil_iff.mp hnil
      have hpos := List.length_pos_iff.mpr hword
      rw [List.flatten_cons, List.length_append, List.length_append] at hlength
      omega

/-- Two tokens of a text that begin at the same offset are from the same segment. -/
theorem Cut.segment_unique
    (hcut₁ : Cut (Name.wordBody table) mode file p text pieces₁ tokens₁ (lead₁ ++ word₁ ++ rest₁))
    (h₁ : Segment (Name.wordBody table) mode lead₁ word₁ rest₁ (some body₁))
    (hcut₂ : Cut (Name.wordBody table) mode file p text pieces₂ tokens₂ (lead₂ ++ word₂ ++ rest₂))
    (h₂ : Segment (Name.wordBody table) mode lead₂ word₂ rest₂ (some body₂))
    (hoffset : ((p.past pieces₁.flatten).past lead₁).offset =
      ((p.past pieces₂.flatten).past lead₂).offset) :
    lead₁ = lead₂ ∧ word₁ = word₂ ∧ rest₁ = rest₂ ∧ body₁ = body₂ := by
  simp only [offset_past] at hoffset
  have hsame : lead₁ ++ word₁ ++ rest₁ = lead₂ ++ word₂ ++ rest₂ := by
    rcases hcut₁.comparable hcut₂ with ⟨between, us, rfl, hcut⟩ | ⟨between, us, rfl, hcut⟩
    · rw [List.flatten_append, List.length_append] at hoffset
      have hlength : lead₁.length = between.flatten.length + lead₂.length := by omega
      obtain rfl := Cut.eq_nil_of_length_eq h₁ hcut hlength
      exact hcut.text_eq
    · rw [List.flatten_append, List.length_append] at hoffset
      have hlength : lead₂.length = between.flatten.length + lead₁.length := by omega
      obtain rfl := Cut.eq_nil_of_length_eq h₂ hcut hlength
      exact hcut.text_eq.symm
  obtain ⟨hlead, hword, hrest, hbody⟩ := h₁.unique h₂ hsame
  exact ⟨hlead, hword, hrest, Option.some.inj hbody⟩

end

end AsmLexer
