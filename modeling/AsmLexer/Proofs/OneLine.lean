import AsmLexer.Diagnostic.Template
import AsmLexer.Proofs.NumberText
import AsmLexer.Proofs.SourceLines

/-!
# Texts without a line feed

Numbers and positions are written within a line, and so is a template that is filled with arguments
which are. Where such texts are put one below another, they are the lines of the whole.
-/

namespace AsmLexer

open Grammar

namespace Text

def OneLine (s : String) : Prop :=
  '\n' ∉ s.toList

instance (s : String) : Decidable (OneLine s) :=
  inferInstanceAs (Decidable (_ ∉ _))

theorem oneLine_ofList {chars : List Char} : OneLine (String.ofList chars) ↔ '\n' ∉ chars := by
  rw [OneLine, String.toList_ofList]

theorem OneLine.append {s t : String} (hs : OneLine s) (ht : OneLine t) : OneLine (s ++ t) := by
  rw [OneLine, String.toList_append]
  exact lineFeed_notMem_append hs ht

theorem lineFeed_notMem_intercalate {separator : List Char} {parts : List (List Char)}
    (hseparator : '\n' ∉ separator) (hparts : ∀ part ∈ parts, '\n' ∉ part) :
    '\n' ∉ separator.intercalate parts := by
  induction parts with
  | nil => simp
  | cons part parts ih =>
      obtain ⟨hpart, htail⟩ := List.forall_mem_cons.mp hparts
      cases parts with
      | nil => simpa using hpart
      | cons next parts =>
          rw [List.intercalate_cons_cons]
          exact lineFeed_notMem_append (lineFeed_notMem_append hpart hseparator) (ih htail)

theorem OneLine.intercalate {separator : String} {parts : List String}
    (hseparator : OneLine separator) (hparts : ∀ part ∈ parts, OneLine part) :
    OneLine (separator.intercalate parts) := by
  rw [OneLine, String.toList_intercalate]
  apply lineFeed_notMem_intercalate hseparator
  rw [List.forall_mem_map]
  exact hparts

/-- The lines of texts that are put one below another. -/
theorem lines_intercalate_lineFeed {parts : List String} (hparts : ∀ part ∈ parts, OneLine part)
    (hne : parts ≠ []) : lines ("\n".intercalate parts).toList = parts.map String.toList := by
  rw [String.toList_intercalate]
  apply lines_intercalate
  · rw [List.forall_mem_map]
    exact hparts
  · simpa using hne

/-! ## Numbers -/

theorem digitChar_ne_lineFeed : ∀ d < 16, Nat.digitChar d ≠ '\n' := by
  decide

theorem lineFeed_notMem_toDigits {base : Nat} (hbase : 1 < base) (hle : base ≤ 16) (n : Nat) :
    '\n' ∉ Nat.toDigits base n := by
  have hdigit (d : Nat) (hd : d < base) : '\n' ∉ [Nat.digitChar d] := by
    rw [List.mem_singleton]
    exact (digitChar_ne_lineFeed d (by omega)).symm
  induction n using Nat.strongRecOn with
  | ind n ih =>
      by_cases hn : n < base
      · rw [Nat.toDigits_of_lt_base hn]
        exact hdigit n hn
      · rw [Nat.toDigits_of_base_le hbase (Nat.not_lt.mp hn)]
        have hquotient := ih (n / base) (Nat.div_lt_self (by omega) hbase)
        exact lineFeed_notMem_append hquotient (hdigit _ (Nat.mod_lt n (by omega)))

theorem oneLine_toString_int (n : Int) : OneLine (toString n) :=
  notMem_toString_int (by decide) (by decide) n

end Text

open Text

namespace Number

theorem oneLine_text (q : Rat) : OneLine (text q) :=
  fun hmem ↦ absurd ((isNumeral_text q).all '\n' hmem) (by decide)

end Number

namespace Position

theorem toList_display (p : Position) :
    p.display.toList =
      (toString (p.row + 1)).toList ++ ':' :: (toString (p.column + 1)).toList := by
  rw [display, String.toList_append, String.toList_append, List.append_assoc]
  rfl

theorem notMem_display {c : Char} (hminus : c ≠ '-') (hdigit : c.isDigit = false)
    (hcolon : c ≠ ':') (p : Position) : c ∉ p.display.toList := by
  have hnumber := notMem_toString_int hminus hdigit
  rw [toList_display, List.mem_append, List.mem_cons]
  rintro (hrow | rfl | hcolumn)
  · exact hnumber _ hrow
  · exact hcolon rfl
  · exact hnumber _ hcolumn

theorem oneLine_display (p : Position) : OneLine p.display :=
  notMem_display (by decide) (by decide) (by decide) p

theorem oneLine_displayNearest (p : Position) : OneLine p.displayNearest :=
  ((Number.oneLine_text _).append (by decide)).append (Number.oneLine_text _)

end Position

/-! ## Templates -/

namespace Template

theorem lineFeed_notMem_fill {args : List (String × Argument)} {piece : Piece}
    (hsource : '\n' ∉ piece.source) (hargs : ∀ arg ∈ args, OneLine arg.2.toText) :
    '\n' ∉ piece.fill args := by
  cases piece with
  | char c => exact hsource
  | slot name =>
      rw [Piece.fill]
      split
      · rename_i argument hlookup
        exact hargs _ (mem_of_lookup_eq_some hlookup)
      · exact hsource

theorem oneLine_interpolate {template : String} {args : List (String × Argument)}
    (htemplate : OneLine template) (hargs : ∀ arg ∈ args, OneLine arg.2.toText) :
    OneLine (interpolate template args) := by
  rw [interpolate, oneLine_ofList]
  intro hmem
  obtain ⟨piece, hpiece, hfill⟩ := List.mem_flatMap.mp hmem
  refine lineFeed_notMem_fill ?_ hargs hfill
  intro hsource
  apply htemplate
  rw [← flatMap_source_pieces template.toList]
  exact List.mem_flatMap.mpr ⟨piece, hpiece, hsource⟩

end Template

end AsmLexer
