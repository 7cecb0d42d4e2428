import AsmLexer.Proofs.OneLine
import AsmLexer.Proofs.TokenStream
import Mathlib.Data.List.Forall2

/-!
# Tokens shown as lines

Every token of a text can be shown. It is shown within a line, whatever the text is, since what a
token covers and what it stands for have no line feed in them.
-/

namespace AsmLexer

open Text

section

variable {ε α β : Type} {x : Except ε α}

theorem map_eq_ok_iff {f : α → β} {y : β} : x.map f = .ok y ↔ ∃ a, x = .ok a ∧ f a = y := by
  cases x <;> simp [Except.map]

theorem bind_eq_ok_iff {f : α → Except ε β} {y : β} :
    (x >>= f) = .ok y ↔ ∃ a, x = .ok a ∧ f a = .ok y := by
  cases x <;> simp [bind, Except.bind]

/-- A list is gone through without a fault if each of its elements is. -/
theorem mapM_eq_ok_iff {f : α → Except ε β} {xs : List α} {ys : List β} :
    xs.mapM f = .ok ys ↔ List.Forall₂ (fun x y ↦ f x = .ok y) xs ys := by
  induction xs generalizing ys with
  | nil =>
      rw [List.mapM_nil, List.forall₂_nil_left_iff]
      exact ⟨fun h ↦ (Except.ok.inj h).symm, fun h ↦ congrArg Except.ok h.symm⟩
  | cons x xs ih =>
      rw [List.mapM_cons, bind_eq_ok_iff, List.forall₂_cons_left_iff]
      constructor
      · rintro ⟨y, hy, h⟩
        obtain ⟨ys', hys, h⟩ := bind_eq_ok_iff.mp h
        exact ⟨y, ys', hy, ih.mp hys, (Except.ok.inj h).symm⟩
      · rintro ⟨y, ys', hy, hys, rfl⟩
        exact ⟨y, hy, bind_eq_ok_iff.mpr ⟨ys', ih.mpr hys, rfl⟩⟩

end

theorem Register.oneLine_nameOfOrdinal {ordinal : Handle} {name : String}
    (h : nameOfOrdinal ordinal = .ok name) : OneLine name := by
  unfold nameOfOrdinal at h
  split at h
  · rename_i r _
    obtain rfl := Except.ok.inj h
    exact r.notMem_name (by decide)
  · cases h

theorem InstructionTable.exists_mem_of_mnemonic? {table : InstructionTable} {code : Rat}
    {mnemonic : String} (h : table.mnemonic? code = some mnemonic) :
    ∃ opcode, (mnemonic, opcode) ∈ table.entries := by
  obtain ⟨n, -, hfind⟩ := Option.bind_eq_some_iff.mp h
  obtain ⟨⟨name, opcode⟩, hentry, rfl⟩ := Option.map_eq_some_iff.mp hfind
  exact ⟨opcode, List.mem_of_find?_eq_some hentry⟩

namespace Token

theorem lineFeed_notMem_hexDigits (n : Nat) : '\n' ∉ hexDigits n := by
  fun_induction hexDigits n with
  | case1 n _ => exact lineFeed_notMem_toDigits (by decide) (by decide) n
  | case2 n _ ih => exact Grammar.lineFeed_notMem_append ih (by decide)

theorem oneLine_hexText (n : Int) : OneLine (hexText n) := by
  rw [hexText, oneLine_ofList]
  split
  · exact Grammar.lineFeed_notMem_append (by decide) (lineFeed_notMem_hexDigits _)
  · exact Grammar.lineFeed_notMem_append (by decide) (lineFeed_notMem_hexDigits _)

theorem Kind.oneLine_name (k : Kind) : OneLine k.name := by
  cases k with
  | directive d => cases d <;> decide
  | unknown code => exact (OneLine.append (by decide) (Number.oneLine_text code)).append (by decide)
  | _ => decide

variable {table : InstructionTable} {source : SourceFile} {file : Handle} {t : Token}

theorem oneLine_payload (htable : ∀ entry ∈ table.entries, OneLine entry.1) {shown : String}
    (h : t.payload table = .ok (some shown)) : OneLine shown := by
  obtain ⟨body, range⟩ := t
  cases body with
  | register ordinal =>
      obtain ⟨name, hname, hshown⟩ := map_eq_ok_iff.mp h
      obtain rfl := Option.some.inj hshown
      exact OneLine.append (by decide) (Register.oneLine_nameOfOrdinal hname)
  | opcode code =>
      obtain rfl := Option.some.inj (Except.ok.inj h)
      cases hmnemonic : table.mnemonic? code with
      | none => exact OneLine.append (by decide) (oneLine_hexText code)
      | some mnemonic =>
          obtain ⟨opcode, hmem⟩ := InstructionTable.exists_mem_of_mnemonic? hmnemonic
          exact htable _ hmem
  | unsigned value | signed value =>
      obtain rfl := Option.some.inj (Except.ok.inj h)
      exact oneLine_toString_int value
  | _ => cases h

theorem oneLine_line (htable : ∀ entry ∈ table.entries, OneLine entry.1)
    (hlexeme : OneLine (t.lexeme source)) {line : String}
    (h : t.line table source = .ok line) : OneLine line := by
  obtain ⟨payload, hpayload, rfl⟩ := map_eq_ok_iff.mp h
  have hquoted : OneLine ("'" ++ t.lexeme source ++ "'") :=
    (OneLine.append (by decide) hlexeme).append (by decide)
  apply OneLine.intercalate (by decide)
  cases payload with
  | none => simp [Position.oneLine_display, Kind.oneLine_name, hquoted]
  | some shown =>
      simp [Position.oneLine_display, Kind.oneLine_name, hquoted, oneLine_payload htable hpayload]

theorem Sound.exists_line (htable : ∀ entry ∈ table.entries, OneLine entry.1)
    (h : t.Sound table source.chars file) :
    ∃ line, t.line table source = .ok line ∧ OneLine line := by
  obtain ⟨payload, hpayload, -⟩ := h.payload
  have hline : t.line table source = .ok _ := map_eq_ok_iff.mpr ⟨payload, hpayload, rfl⟩
  have hlexeme : OneLine (t.lexeme source) := oneLine_ofList.mpr h.lineFeed_notMem
  exact ⟨_, hline, oneLine_line htable hlexeme hline⟩

theorem Sound.exists_view (h : t.Sound table source.chars file) :
    ∃ view, t.view table source = .ok view := by
  obtain ⟨payload, hpayload, -⟩ := h.payload
  exact ⟨_, map_eq_ok_iff.mpr ⟨payload, hpayload, rfl⟩⟩

end Token

end AsmLexer
