import AsmLexer.Command.Tokenize
import AsmLexer.Proofs.Interpolation
import AsmLexer.Proofs.ValueText

/-!
# Messages of the command

The templates of the command have one slot each. A message is the template with the argument in the
place of its slot, whatever characters the argument has. For a failure the argument is what it says.
-/

namespace AsmLexer

namespace Template

/-- The template has one slot, between `front` and `back`. -/
def HasSlot (template front name back : String) : Prop :=
  template = front ++ "\x7b" ++ name ++ "\x7d" ++ back ∧ '\x7b' ∉ front.toList ∧
    '\x7b' ∉ back.toList ∧ name ≠ "" ∧ name.toList.all isWordChar = true

instance (template front name back : String) : Decidable (HasSlot template front name back) :=
  inferInstanceAs (Decidable (_ ∧ _))

theorem HasSlot.decomposes {template front name back : String}
    (h : HasSlot template front name back) :
    (⟨front.toList, [(name.toList, back.toList)]⟩ : Decomposition).Decomposes
      template.toList := by
  obtain ⟨htemplate, hfront, hback, hne, hname⟩ := h
  have hword : IsWord name.toList := ⟨by simpa using hne, List.all_eq_true.mp hname⟩
  refine ⟨?_, List.forall_mem_singleton.mpr hword, slotFree_of_notMem hfront,
    List.forall_mem_singleton.mpr (slotFree_of_notMem hback)⟩
  rw [htemplate, Decomposition.render]
  simp [placeholder, String.toList_append]

theorem pieces_of_hasSlot {template front name back : String}
    (h : HasSlot template front name back) :
    pieces template.toList =
      front.toList.map Piece.char ++ .slot name.toList :: back.toList.map Piece.char := by
  rw [h.decomposes.pieces_eq]
  simp [Decomposition.pieces]

theorem interpolate_of_hasSlot {template front name back : String}
    (h : HasSlot template front name back) (argument : Argument) :
    interpolate template [(name, argument)] = front ++ argument.toText ++ back := by
  have hshown : shownBy [(name, argument)] name.toList = argument.toText.toList := by
    simp [shownBy]
  rw [h.decomposes.interpolate_eq, Decomposition.render]
  simp [hshown, String.ofList_append, String.append_assoc]

end Template

namespace Command

end Command

end AsmLexer
