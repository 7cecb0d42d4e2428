import AsmLexer.Proofs.Grammar

/-!
# Segments and lines

A line feed is a segment of its own, and no other segment and no fault has one in it. A segment is
never empty, and a token never covers nothing.
-/

namespace AsmLexer

open Text

theorem mem_of_lookup_eq_some {α β : Type} [BEq α] [LawfulBEq α] {key : α} {value : β}
    {entries : List (α × β)} (h : entries.lookup key = some value) : (key, value) ∈ entries := by
  obtain ⟨front, rear, rfl, -⟩ := List.lookup_eq_some_iff.mp h
  simp

namespace Register

theorem name_of_mem_byLetters :
    ∀ entry ∈ byLetters, ∀ member ∈ entry.2,
      member.2.name.toList = ['r', entry.1, member.1] := by
  decide

theorem name_of_named? {first second : Char} {r : Register} (h : named? first second = some r) :
    r.name.toList = ['r', first, second] := by
  obtain ⟨group, hgroup, hsecond⟩ := Option.bind_eq_some_iff.mp h
  exact name_of_mem_byLetters _ (mem_of_lookup_eq_some hgroup) _ (mem_of_lookup_eq_some hsecond)

theorem all_isAlphanum_name (r : Register) : r.name.toList.all Char.isAlphanum = true := by
  cases r with
  | general index =>
      revert index
      decide
  | _ => decide

theorem notMem_name {c : Char} (hc : c.isAlphanum = false) (r : Register) :
    c ∉ r.name.toList := by
  intro hmem
  rw [List.all_eq_true.mp r.all_isAlphanum_name c hmem] at hc
  cases hc

end Register

namespace Grammar

variable {words : List Char → Token.Body} {mode : NumericMode}

theorem lineFeed_notMem_of_all {p : Char → Bool} {chars : List Char} (hp : p '\n' = false)
    (h : ∀ c ∈ chars, p c = true) : '\n' ∉ chars := by
  intro hmem
  simp [h '\n' hmem] at hp

theorem lineFeed_notMem_append {front rear : List Char} (hfront : '\n' ∉ front)
    (hrear : '\n' ∉ rear) : '\n' ∉ front ++ rear := by
  simp [hfront, hrear]

theorem lineFeed_notMem_sign (negative : Bool) : '\n' ∉ sign negative := by
  cases negative <;> decide

theorem Mark.lineFeed_notMem {letter : Char} {kind : NumericMode} {mark text : List Char}
    (h : Mark letter kind mode mark text) (hletter : '\n' ≠ letter) : '\n' ∉ mark := by
  cases h with
  | letter => simp [hletter]
  | mode => simp

theorem Segment.line_cases {lead word rest : List Char} {found : Option Token.Body}
    (h : Segment words mode lead word rest found) :
    (lead = ['\n'] ∧ word = [] ∧ found = none) ∨ '\n' ∉ lead ++ word := by
  cases h with
  | lineFeed => exact .inl ⟨rfl, rfl, rfl⟩
  | blank _ _ hline => exact .inr (by simpa using Ne.symm hline)
  | comment hrun =>
      have hbody := hrun.notMem (c := '\n') (by decide)
      exact .inr (by simpa using hbody)
  | comma => exact .inr (by decide)
  | colon => exact .inr (by decide)
  | directive hrun => exact .inr (by simpa using hrun.notMem (c := '\n') (by decide))
  | word hrun => exact .inr (hrun.notMem (by decide))
  | general hdigit =>
      refine .inr ?_
      rintro hmem
      obtain rfl : '\n' = _ := by simpa using hmem
      simp at hdigit
  | @named _ _ r _ hr =>
      have hname := r.notMem_name (by decide : '\n'.isAlphanum = false)
      rw [Register.name_of_named? hr] at hname
      exact .inr (by simpa using hname)
  | hex hrun => exact .inr (by simpa using hrun.notMem (c := '\n') (by decide))
  | binary hrun => exact .inr (by simpa using hrun.notMem (c := '\n') (by decide))
  | unsigned hmark hnumber =>
      exact .inr (lineFeed_notMem_append (hmark.lineFeed_notMem (by decide))
        (hnumber.run.notMem (by decide)))
  | signed negative hmark hnumber =>
      exact .inr (lineFeed_notMem_append (hmark.lineFeed_notMem (by decide))
        (lineFeed_notMem_append (lineFeed_notMem_sign negative)
          (hnumber.run.notMem (by decide))))

theorem Segment.append_ne_nil {lead word rest : List Char} {found : Option Token.Body}
    (h : Segment words mode lead word rest found) : lead ++ word ≠ [] := by
  cases h with
  | word _ hne => exact hne
  | unsigned _ hnumber => simp [hnumber.ne_nil]
  | signed _ _ hnumber => simp [hnumber.ne_nil]
  | _ => simp

/-- The segments that bear a token are those that have characters for it to cover. -/
theorem Segment.word_eq_nil_iff {lead word rest : List Char} {found : Option Token.Body}
    (h : Segment words mode lead word rest found) : word = [] ↔ found = none := by
  cases h with
  | @directive _ _ d _ hd =>
      subst hd
      cases d <;> simp [Directive.spelling]
  | word _ hne => simp [hne]
  | hex _ hne => simp [hne]
  | binary _ hne => simp [hne]
  | unsigned _ hnumber => simp [hnumber.ne_nil]
  | signed _ _ hnumber => simp [hnumber.ne_nil]
  | _ => simp

theorem Unexpected.ne_lineFeed {c : Char} (h : Unexpected mode c) : c ≠ '\n' := by
  rintro rfl
  exact absurd h.notWhiteSpace (by decide)

theorem Missing.lineFeed_notMem {fault : PointFault} {lead passed rest : List Char}
    (h : Missing fault lead passed rest) : '\n' ∉ lead ++ passed := by
  cases h with
  | identifier => decide
  | register hpassed =>
      revert passed
      decide

theorem Fault.lineFeed_notMem {fault : SpanFault} {lead span rest : List Char}
    (h : Fault mode fault lead span rest) : '\n' ∉ lead ++ span := by
  cases h with
  | directive hrun => simpa using hrun.notMem (c := '\n') (by decide)
  | register hrun => simpa using hrun.notMem (c := '\n') (by decide)
  | hex hrun => simpa using hrun.notMem (c := '\n') (by decide)
  | noBinary => decide
  | longBinary _ hdigits =>
      exact lineFeed_notMem_append (by decide) (lineFeed_notMem_of_all (by decide) hdigits)
  | noUnsigned => decide
  | unsigned hmark hpast =>
      exact lineFeed_notMem_append (hmark.lineFeed_notMem (by decide))
        (lineFeed_notMem_of_all (by decide) hpast.all)
  | noSigned negative hmark =>
      rw [List.append_nil]
      exact lineFeed_notMem_append (hmark.lineFeed_notMem (by decide))
        (lineFeed_notMem_sign negative)
  | signed negative hmark hpast =>
      exact lineFeed_notMem_append (hmark.lineFeed_notMem (by decide))
        (lineFeed_notMem_append (lineFeed_notMem_sign negative)
          (lineFeed_notMem_of_all (by decide) hpast.all))

theorem Missing.append_ne_nil {fault : PointFault} {lead passed rest : List Char}
    (h : Missing fault lead passed rest) : lead ++ passed ≠ [] := by
  cases h <;> simp

theorem Fault.append_ne_nil {fault : SpanFault} {lead span rest : List Char}
    (h : Fault mode fault lead span rest) : lead ++ span ≠ [] := by
  cases h with
  | unsigned _ hpast => simp [hpast.ne_nil]
  | noSigned _ _ hsign => simpa using hsign
  | signed _ _ hpast => simp [hpast.ne_nil]
  | _ => simp

theorem FloatAhead.append_ne_nil {lead rest : List Char} (h : FloatAhead mode lead rest) :
    lead ++ rest ≠ [] := by
  obtain ⟨hmark, hopens⟩ := h
  cases hmark with
  | letter => simp
  | mode =>
      obtain ⟨c, hc, -⟩ := hopens rfl
      rintro rfl
      cases hc

theorem Reads.ne_nil {text : List Char} {r : Reading} (h : Reads words mode text r) :
    text ≠ [] := by
  cases h with
  | segment h => exact List.append_ne_nil_of_left_ne_nil h.append_ne_nil _
  | unexpected => simp
  | missing h => exact List.append_ne_nil_of_left_ne_nil h.append_ne_nil _
  | fault h => exact List.append_ne_nil_of_left_ne_nil h.append_ne_nil _
  | float h => exact h.append_ne_nil

theorem FloatAhead.lineFeed_notMem {lead rest : List Char} (h : FloatAhead mode lead rest) :
    '\n' ∉ lead :=
  h.mark.lineFeed_notMem (by decide)

end Grammar

end AsmLexer
