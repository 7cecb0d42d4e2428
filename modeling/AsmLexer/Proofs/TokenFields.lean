import AsmLexer.Proofs.ShownPayload
import AsmLexer.Proofs.TokenLines

/-!
# Reading tokens back

The line that shows a token is split at its blanks into its fields, since there is no blank in any
of them, and each field tells what it has been made from. A record tells the whole token but for the
file that it is from.
-/

namespace AsmLexer

open Text Grammar Position

/-! ## Places, kinds and numbers are told apart -/

theorem Position.display_inj {p q : Position} (h : p.display = q.display) :
    p.row = q.row ∧ p.column = q.column := by
  have hcolon (v : Int) : ':' ∉ (toString v).toList := notMem_toString_int (by decide) (by decide) v
  have htext := congrArg String.toList h
  rw [toList_display, toList_display,
    List.append_cons_inj_of_notMem (hcolon _) (hcolon _)] at htext
  have hrow := toString_int_injective (String.toList_injective htext.1)
  have hcolumn := toString_int_injective (String.toList_injective htext.2.2)
  omega

namespace Token

theorem Kind.nodup_names : (Kind.all.map Kind.name).Nodup := by
  decide

theorem Body.Sound.kind_mem {table : InstructionTable} {body : Body} (h : body.Sound table) :
    body.kind ∈ Kind.all := by
  cases h with
  | directive d => exact List.mem_append_left _ (List.mem_append_right _
      (List.mem_map_of_mem (Directive.mem_all d)))
  | _ => simp [Body.kind, Kind.all]

end Token

namespace Register

theorem mem_all (r : Register) : r ∈ all :=
  List.mem_of_getElem? r.getElem?_all_ordinal

theorem nodup_names : (all.map name).Nodup := by
  decide

theorem name_inj {r s : Register} (h : r.name = s.name) : r = s :=
  List.inj_on_of_nodup_map nodup_names r.mem_all s.mem_all h

end Register

namespace InstructionTable

theorem nodup_mnemonics_standard : (standard.entries.map Prod.fst).Nodup := by
  decide

theorem mnemonic?_of_mem {mnemonic : String} {code : Nat}
    (h : (mnemonic, code) ∈ standard.entries) :
    standard.mnemonic? ((code : Int) : Rat) = some mnemonic :=
  (mnemonic?_eq_some_iff nodup_standard).mpr ⟨code, Rat.intCast_natCast code, h⟩

theorem code_eq_of_mem {mnemonic : String} {code other : Nat}
    (h : (mnemonic, code) ∈ standard.entries) (hother : (mnemonic, other) ∈ standard.entries) :
    code = other := by
  have hcode := (opcode?_eq_some_iff nodup_mnemonics_standard).mpr h
  rw [(opcode?_eq_some_iff nodup_mnemonics_standard).mpr hother] at hcode
  exact (Option.some.inj hcode).symm

end InstructionTable

namespace Token

theorem Kind.name_inj {k k' : Kind} (hk : k ∈ all) (hk' : k' ∈ all) (h : k.name = k'.name) :
    k = k' :=
  List.inj_on_of_nodup_map nodup_names hk hk' h

/-- What a token of a text stands for is told by its kind and by what is shown of it. -/
theorem body_eq_of_payload {t u : Token} (ht : t.body.Sound .standard)
    (hu : u.body.Sound .standard) (hkind : t.kind = u.kind)
    (hpayload : t.payload .standard = u.payload .standard) : t.body = u.body := by
  obtain ⟨body, range⟩ := t
  obtain ⟨other, range'⟩ := u
  cases ht with
  | register hnonneg hle =>
      cases hu with
      | register hnonneg' hle' =>
          obtain ⟨r, rfl, hr⟩ := Register.exists_name_eq hnonneg hle
          obtain ⟨s, rfl, hs⟩ := Register.exists_name_eq hnonneg' hle'
          simp only [payload, hr, hs] at hpayload
          have hshown := Option.some.inj (Except.ok.inj hpayload)
          rw [Register.name_inj (String.append_right_inj "$" |>.mp hshown)]
      | _ => cases hkind
  | opcode hmem =>
      cases hu with
      | opcode hmem' =>
          simp only [payload, InstructionTable.mnemonic?_of_mem hmem,
            InstructionTable.mnemonic?_of_mem hmem'] at hpayload
          obtain rfl := Option.some.inj (Except.ok.inj hpayload)
          rw [InstructionTable.code_eq_of_mem hmem hmem']
      | _ => cases hkind
  | unsigned =>
      cases hu with
      | unsigned =>
          have hshown := Option.some.inj (Except.ok.inj hpayload)
          exact congrArg Body.unsigned (toString_int_injective hshown)
      | _ => cases hkind
  | signed =>
      cases hu with
      | signed =>
          have hshown := Option.some.inj (Except.ok.inj hpayload)
          exact congrArg Body.signed (toString_int_injective hshown)
      | _ => cases hkind
  | directive d =>
      cases hu with
      | directive d' => exact congrArg Body.directive (Kind.directive.inj hkind)
      | _ => cases hkind
  | comma | colon | identifier =>
      cases hu with
      | _ => first | rfl | cases hkind

end Token

/-! ## No blank is in a lexeme -/

theorem Grammar.Segment.blank_notMem {words : List Char → Token.Body} {mode : NumericMode}
    {lead word rest : List Char} {body : Token.Body}
    (h : Segment words mode lead word rest (some body)) : ' ' ∉ word := by
  cases h with
  | comma => decide
  | colon => decide
  | directive hrun => exact hrun.notMem (by decide)
  | word hrun => exact hrun.notMem (by decide)
  | general hdigit =>
      rw [← String.toList_ofList (l := ['r', _]), ← Register.name_ofDigit hdigit]
      exact Register.notMem_name (by decide) _
  | named _ hr =>
      rw [← Register.name_of_named? hr]
      exact Register.notMem_name (by decide) _
  | hex hrun => exact hrun.notMem (by decide)
  | binary hrun => exact hrun.notMem (by decide)
  | unsigned _ hnumber => exact hnumber.run.notMem (by decide)
  | signed negative _ hnumber =>
      rw [List.mem_append]
      rintro (hsign | hdigits)
      · cases negative <;> simp [sign] at hsign
      · exact hnumber.run.notMem (by decide) hdigits

namespace Token

/-! ## The tokens of a text -/

/-- A session over the text holds the token. -/
def LexedFrom (t : Token) (source : SourceFile) : Prop :=
  ∃ mode file n, t ∈ ((Lexer.start .standard mode file source.chars).runs n).store.toList

section

variable {t u : Token} {source other : SourceFile} {shown : Option String}

theorem LexedFrom.exists_segment (h : t.LexedFrom source) :
    ∃ mode lead word rest, Segment (Name.wordBody .standard) mode lead word rest (some t.body) ∧
      t.lexeme source = String.ofList word := by
  obtain ⟨mode, file, n, ht⟩ := h
  have hstands := Lexer.standsIn_start .standard mode file source.chars
  have hreach := (Lexer.start .standard mode file source.chars).reaches_runs n
  obtain ⟨mark, hfinds⟩ := Lexer.exists_finds hreach hstands rfl t ht
  exact ⟨mode, mark, hfinds.exists_segment⟩

theorem LexedFrom.body_sound (h : t.LexedFrom source) : t.body.Sound .standard := by
  obtain ⟨mode, lead, word, rest, hsegment, -⟩ := h.exists_segment
  exact .of_segment hsegment

theorem LexedFrom.shows (h : t.LexedFrom source) :
    ∃ mark shown, t.payload .standard = .ok shown ∧ Shows mark (t.lexeme source) t.body shown := by
  obtain ⟨mode, lead, word, rest, hsegment, hlexeme⟩ := h.exists_segment
  rw [hlexeme]
  exact ⟨lead, shows_of_segment hsegment t.range⟩

/-! ## No blank is in a field -/

theorem Kind.blank_notMem_name : ∀ k ∈ Kind.all, ' ' ∉ k.name.toList := by
  decide

theorem ShowsNumber.blank_notMem {base : Nat} {lexeme text : String} {value : Int}
    (h : ShowsNumber base lexeme value text) : ' ' ∉ text.toList := by
  rw [← (h.canonical _).mp (canonical_iff.mpr rfl)]
  exact notMem_toString_int (by decide) (by decide) value

theorem Shows.blank_notMem {mark : List Char} {lexeme : String} {body : Body} {text : String}
    (h : Shows mark lexeme body (some text)) (hlexeme : ' ' ∉ lexeme.toList) :
    ' ' ∉ text.toList := by
  cases h with
  | register => simpa using hlexeme
  | opcode => exact hlexeme
  | unsigned _ _ h => exact h.blank_notMem
  | signed _ h => exact h.blank_notMem

/-! ## Lines -/

/-- What the line of a token is made of. -/
def fields (t : Token) (source : SourceFile) (shown : Option String) : List String :=
  [t.range.start.display, t.kind.name] ++ shown.toList ++ ["'" ++ t.lexeme source ++ "'"]

theorem LexedFrom.exists_line (h : t.LexedFrom source) :
    ∃ shown line, t.payload .standard = .ok shown ∧ t.line .standard source = .ok line ∧
      line.toList.splitOn ' ' = (t.fields source shown).map String.toList := by
  obtain ⟨mark, shown, hpayload, hshows⟩ := h.shows
  obtain ⟨mode, lead, word, rest, hsegment, hlexeme⟩ := h.exists_segment
  have hword : ' ' ∉ (t.lexeme source).toList := by
    rw [hlexeme, String.toList_ofList]
    exact hsegment.blank_notMem
  have hkind := Kind.blank_notMem_name t.kind h.body_sound.kind_mem
  have hplace : ' ' ∉ t.range.start.display.toList :=
    notMem_display (by decide) (by decide) (by decide) _
  have hfields : ∀ field ∈ (t.fields source shown).map String.toList, ' ' ∉ field := by
    rw [List.forall_mem_map]
    cases shown with
    | none => simp [fields, hplace, hkind, hword]
    | some text => simp [fields, hplace, hkind, hword, hshows.blank_notMem hword]
  refine ⟨shown, _, hpayload, map_eq_ok_iff.mpr ⟨shown, hpayload, rfl⟩, ?_⟩
  rw [String.toList_intercalate]
  exact List.splitOn_intercalate ' ' hfields (by simp)

theorem fields_inj {shown' : Option String}
    (h : t.fields source shown = u.fields other shown') :
    t.range.start.display = u.range.start.display ∧ t.kind.name = u.kind.name ∧ shown = shown' ∧
      t.lexeme source = u.lexeme other := by
  obtain ⟨hfront, hquoted⟩ := List.append_inj' h rfl
  obtain ⟨hplace, hrest⟩ := List.cons.inj hfront
  obtain ⟨hkind, hshown⟩ := List.cons.inj hrest
  have hlexeme := (String.append_left_inj "'").mp (List.cons.inj hquoted).1
  refine ⟨hplace, hkind, ?_, (String.append_right_inj "'").mp hlexeme⟩
  cases shown <;> cases shown' <;> simp_all

/-! ## Records -/

theorem positionValue_inj {p q : Position} (h : positionValue p = positionValue q) : p = q := by
  obtain ⟨offset, row, column⟩ := p
  obtain ⟨offset', row', column'⟩ := q
  simp only [positionValue, Value.record.injEq, List.cons.injEq, Prod.mk.injEq,
    Value.number.injEq, Rat.intCast_inj, true_and, and_true] at h
  obtain ⟨rfl, rfl, rfl⟩ := h
  rfl

theorem View.value_inj {v w : View} (h : v.value = w.value) : v = w := by
  obtain ⟨start, stop, kind, lexeme, shown⟩ := v
  obtain ⟨start', stop', kind', lexeme', shown'⟩ := w
  simp only [value, Value.record.injEq, List.cons_append, List.nil_append, List.cons.injEq,
    Prod.mk.injEq, Value.string.injEq, true_and] at h
  obtain ⟨hstop, rfl, rfl, hstart, hshown⟩ := h
  rw [positionValue_inj hstart, positionValue_inj hstop]
  cases shown <;> cases shown' <;> simp_all

/-! ## Reading back -/

theorem eq_of_line_eq (ht : t.LexedFrom source) (hu : u.LexedFrom other)
    (h : t.line .standard source = u.line .standard other) :
    t.range.start.row = u.range.start.row ∧ t.range.start.column = u.range.start.column ∧
      t.kind = u.kind ∧ t.payload .standard = u.payload .standard ∧
        t.lexeme source = u.lexeme other := by
  obtain ⟨shown, line, hpayload, hline, hfields⟩ := ht.exists_line
  obtain ⟨shown', line', hpayload', hline', hfields'⟩ := hu.exists_line
  obtain rfl : line = line' := Except.ok.inj (hline.symm.trans (h.trans hline'))
  have hequal := List.map_injective_iff.mpr (fun _ _ h ↦ String.toList_injective h)
    (hfields.symm.trans hfields')
  obtain ⟨hplace, hkind, rfl, hlexeme⟩ := fields_inj hequal
  obtain ⟨hrow, hcolumn⟩ := Position.display_inj hplace
  exact ⟨hrow, hcolumn, Kind.name_inj ht.body_sound.kind_mem hu.body_sound.kind_mem hkind,
    hpayload.trans hpayload'.symm, hlexeme⟩

theorem LexedFrom.exists_view (h : t.LexedFrom source) :
    ∃ view, t.view .standard source = .ok view := by
  obtain ⟨-, shown, hpayload, -⟩ := h.shows
  exact ⟨_, map_eq_ok_iff.mpr ⟨shown, hpayload, rfl⟩⟩

theorem eq_of_view_eq (ht : t.LexedFrom source) (hu : u.LexedFrom other) {v : View}
    (hv : t.view .standard source = .ok v) (hv' : u.view .standard other = .ok v) :
    t.range.start = u.range.start ∧ t.range.stop = u.range.stop ∧ t.kind = u.kind ∧
      t.body = u.body := by
  obtain ⟨shown, hpayload, rfl⟩ := map_eq_ok_iff.mp hv
  obtain ⟨shown', hpayload', hview⟩ := map_eq_ok_iff.mp hv'
  obtain ⟨hstart, hstop, hname, -, rfl⟩ := View.mk.inj hview
  have hkind := Kind.name_inj hu.body_sound.kind_mem ht.body_sound.kind_mem hname
  exact ⟨hstart.symm, hstop.symm, hkind.symm,
    body_eq_of_payload ht.body_sound hu.body_sound hkind.symm (hpayload.trans hpayload'.symm)⟩

/-- A line of a token has three fields between its blanks, or four if the token stands for a number,
and it tells where the token begins, its kind and what is written. A record tells where the token
begins and ends and what it stands for. -/
theorem printed_readBack (ht : t.LexedFrom source) (hu : u.LexedFrom other) :
    (∃ shown line, t.payload .standard = .ok shown ∧ t.line .standard source = .ok line ∧
        line.toList.splitOn ' ' = (t.fields source shown).map String.toList ∧
          (t.fields source shown).length = if shown.isSome then 4 else 3) ∧
      (t.line .standard source = u.line .standard other →
        t.range.start.row = u.range.start.row ∧ t.range.start.column = u.range.start.column ∧
          t.kind = u.kind ∧ t.payload .standard = u.payload .standard ∧
            t.lexeme source = u.lexeme other) ∧
      ∃ v w, t.view .standard source = .ok v ∧ u.view .standard other = .ok w ∧
        (v.value = w.value → t.range.start = u.range.start ∧ t.range.stop = u.range.stop ∧
          t.kind = u.kind ∧ t.body = u.body) := by
  refine ⟨?_, eq_of_line_eq ht hu, ?_⟩
  · obtain ⟨shown, line, hpayload, hline, hfields⟩ := ht.exists_line
    refine ⟨shown, line, hpayload, hline, hfields, ?_⟩
    cases shown <;> rfl
  · obtain ⟨v, hv⟩ := ht.exists_view
    obtain ⟨w, hw⟩ := hu.exists_view
    refine ⟨v, w, hv, hw, ?_⟩
    intro hvalue
    obtain rfl := View.value_inj hvalue
    exact eq_of_view_eq ht hu hv hw

/-- Tokens of two texts that were read in different modes. -/
theorem printed_readBack_opcode :
    ∃ t u : Token, t.LexedFrom ⟨0, "main.vasm", "0 mov"⟩ ∧
      u.LexedFrom ⟨1, "other.vasm", "  mov $r1"⟩ ∧ t ≠ u ∧
      (∃ line, t.line .standard ⟨0, "main.vasm", "0 mov"⟩ = .ok line ∧
        line.toList.splitOn ' ' =
          ["1:3".toList, "Opcode".toList, "mov".toList, "'mov'".toList]) ∧
      t.kind = u.kind ∧ t.range.start = u.range.start ∧ t.body = u.body := by
  have ht : LexedFrom ⟨.opcode 5, ⟨⟨2, 0, 2⟩, ⟨5, 0, 5⟩, 0⟩⟩ ⟨0, "main.vasm", "0 mov"⟩ :=
    ⟨.signed, 0, 1, by decide +kernel⟩
  have hu : LexedFrom ⟨.opcode 5, ⟨⟨2, 0, 2⟩, ⟨5, 0, 5⟩, 1⟩⟩ ⟨1, "other.vasm", "  mov $r1"⟩ :=
    ⟨.unsigned, 1, 1, by decide +kernel⟩
  obtain ⟨⟨shown, line, hpayload, hline, hfields, -⟩, hequal, v, w, hv, hw, hvalue⟩ :=
    printed_readBack ht hu
  obtain ⟨-, -, hkind, -, -⟩ := hequal (by decide +kernel)
  have hviews : v = w := Except.ok.inj (hv.symm.trans (Eq.trans (by decide +kernel) hw))
  obtain ⟨hstart, -, -, hbody⟩ := hvalue (congrArg View.value hviews)
  obtain rfl : some "mov" = shown := Except.ok.inj (Eq.trans (by decide +kernel) hpayload)
  refine ⟨_, _, ht, hu, by decide, ⟨line, hline, hfields.trans ?_⟩, hkind, hstart, hbody⟩
  decide +kernel

end

end Token

end AsmLexer
