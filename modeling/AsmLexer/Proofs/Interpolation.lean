import AsmLexer.Diagnostic.Template
import Mathlib.Data.List.Basic

/-!
# Slots and the text around them

There is one way only to take a template apart into slots and texts without slots: two places where
a word stands between braces do not overlap. Main statement: filling a template puts the text of an
argument in the place of each slot that has one, and changes nothing else.
-/

namespace AsmLexer.Template

/-- A nonempty word of the characters that the name of a slot may have. -/
def IsWord (name : List Char) : Prop :=
  name ≠ [] ∧ ∀ c ∈ name, isWordChar c = true

/-- A name between braces. -/
def placeholder (name : List Char) : List Char :=
  '\x7b' :: (name ++ ['\x7d'])

/-- Nowhere in the text a word stands between braces. -/
def SlotFree (text : List Char) : Prop :=
  ∀ name, IsWord name → ¬placeholder name <:+: text

theorem IsWord.openingBrace_notMem {name : List Char} (h : IsWord name) :
    '\x7b' ∉ name ++ ['\x7d'] := by
  intro hmem
  rcases List.mem_append.mp hmem with hname | hclosing
  · exact absurd (h.2 _ hname) (by decide)
  · exact absurd hclosing (by decide)

theorem slotFree_nil : SlotFree [] := by
  intro name _ hwithin
  cases List.infix_nil.mp hwithin

theorem slotFree_cons {c : Char} {text : List Char} :
    SlotFree (c :: text) ↔
      (c = '\x7b' → ∀ name, IsWord name → ¬name ++ ['\x7d'] <+: text) ∧ SlotFree text := by
  constructor
  · intro h
    refine ⟨?_, fun name hname hwithin ↦ h name hname (List.infix_cons hwithin)⟩
    rintro rfl name hname hfront
    exact h name hname ((List.prefix_cons_inj _).mpr hfront).isInfix
  · rintro ⟨hfront, hfree⟩ name hname hwithin
    rcases List.infix_cons_iff.mp hwithin with hhere | hlater
    · obtain ⟨rfl, htail⟩ := List.cons_prefix_cons.mp hhere
      exact hfront rfl name hname htail
    · exact hfree name hname hlater

theorem slotFree_of_notMem {text : List Char} (h : '\x7b' ∉ text) : SlotFree text := by
  intro name _ hwithin
  exact h (hwithin.subset List.mem_cons_self)

/-! ## Reading a slot -/

theorem slot?_append {name : List Char} (hname : IsWord name) (rest : List Char) :
    slot? (name ++ '\x7d' :: rest) = some (name, rest) := by
  have hbrace : isWordChar '\x7d' = false := by decide
  rw [slot?, List.takeWhile_append_of_pos hname.2, List.dropWhile_append_of_pos hname.2]
  simp [hbrace, hname.1]

theorem isWord_of_slot? {text name rest : List Char} (h : slot? text = some (name, rest)) :
    IsWord name := by
  unfold slot? at h
  dsimp only at h
  split at h
  · split at h
    · cases h
    · rename_i hne
      obtain ⟨rfl, -⟩ := Prod.mk.inj (Option.some.inj h)
      exact ⟨hne, fun c hc ↦ List.all_eq_true.mp List.all_takeWhile c hc⟩
  · cases h

theorem pieces_slot {name : List Char} (hname : IsWord name) (rest : List Char) :
    pieces ('\x7b' :: (name ++ '\x7d' :: rest)) = .slot name :: pieces rest := by
  rw [pieces, if_pos rfl]
  split
  · rename_i name' rest' hslot
    rw [slot?_append hname] at hslot
    obtain ⟨rfl, rfl⟩ := Prod.mk.inj (Option.some.inj hslot)
    rfl
  · rename_i hslot
    rw [slot?_append hname] at hslot
    cases hslot

theorem pieces_char {c : Char} {cs : List Char} (h : c = '\x7b' → slot? cs = none) :
    pieces (c :: cs) = .char c :: pieces cs := by
  rw [pieces]
  split
  · rename_i hbrace
    split
    · rename_i hslot
      rw [h hbrace] at hslot
      cases hslot
    · rfl
  · rfl

/-- A slot that a brace in `front` would open is closed in `front`, if the text behind it can only
open another one. -/
theorem slot?_append_eq_none {front rest : List Char}
    (hfree : ∀ name, IsWord name → ¬name ++ ['\x7d'] <+: front)
    (hrest : ∀ c ∈ rest.head?, c = '\x7b') : slot? (front ++ rest) = none := by
  rw [Option.eq_none_iff_forall_ne_some]
  rintro ⟨name, tail⟩ hslot
  have hname := isWord_of_slot? hslot
  have htext : name ++ ['\x7d'] ++ tail = front ++ rest := by
    rw [eq_of_slot? hslot, List.append_assoc, List.singleton_append]
  rcases List.append_eq_append_iff.mp htext with ⟨between, hfront, -⟩ | ⟨between, hclosed, hbehind⟩
  · exact hfree name hname ⟨between, hfront.symm⟩
  · cases between with
    | nil =>
        rw [List.append_nil] at hclosed
        exact hfree name hname ⟨[], by rw [hclosed, List.append_nil]⟩
    | cons c between =>
        obtain rfl : c = '\x7b' := hrest c (by rw [hbehind]; rfl)
        exact hname.openingBrace_notMem (by rw [hclosed]; simp)

theorem pieces_append {front rest : List Char} (hfree : SlotFree front)
    (hrest : ∀ c ∈ rest.head?, c = '\x7b') :
    pieces (front ++ rest) = front.map Piece.char ++ pieces rest := by
  induction front with
  | nil => rfl
  | cons c front ih =>
      obtain ⟨hopened, htail⟩ := slotFree_cons.mp hfree
      rw [List.cons_append, pieces_char fun hc ↦ slot?_append_eq_none (hopened hc) hrest, ih htail]
      rfl

/-! ## Decompositions -/

/-- A text in front, and slots by their names, each with the text behind it. -/
structure Decomposition where
  first : List Char
  slots : List (List Char × List Char)

namespace Decomposition

/-- The texts with something in the place of each slot. -/
def render (d : Decomposition) (shown : List Char → List Char) : List Char :=
  d.first ++ d.slots.flatMap fun slot ↦ shown slot.1 ++ slot.2

/-- The template is taken apart into slots and texts without slots. -/
structure Decomposes (d : Decomposition) (template : List Char) : Prop where
  render_eq : d.render placeholder = template
  isWord : ∀ slot ∈ d.slots, IsWord slot.1
  first_free : SlotFree d.first
  behind_free : ∀ slot ∈ d.slots, SlotFree slot.2

theorem render_congr {d : Decomposition} {shown other : List Char → List Char}
    (h : ∀ slot ∈ d.slots, shown slot.1 = other slot.1) : d.render shown = d.render other := by
  have hslots : (d.slots.flatMap fun slot ↦ shown slot.1 ++ slot.2) =
      d.slots.flatMap fun slot ↦ other slot.1 ++ slot.2 := by
    apply List.flatMap_congr
    intro slot hslot
    rw [h slot hslot]
  rw [render, render, hslots]

def pieces (d : Decomposition) : List Piece :=
  d.first.map .char ++ d.slots.flatMap fun slot ↦ .slot slot.1 :: slot.2.map .char

def ofPieces : List Piece → Decomposition
  | [] => ⟨[], []⟩
  | .char c :: rest => ⟨c :: (ofPieces rest).first, (ofPieces rest).slots⟩
  | .slot name :: rest => ⟨[], (name, (ofPieces rest).first) :: (ofPieces rest).slots⟩

theorem render_ofPieces {shown : List Char → List Char} (f : Piece → List Char)
    (hchar : ∀ c, f (.char c) = [c]) (hslot : ∀ name, f (.slot name) = shown name)
    (list : List Piece) : (ofPieces list).render shown = list.flatMap f := by
  induction list with
  | nil => rfl
  | cons piece rest ih =>
      rw [List.flatMap_cons, ← ih]
      cases piece with
      | char c =>
          rw [hchar]
          rfl
      | slot name => simp [hslot, ofPieces, render]

theorem ofPieces_map_append (text : List Char) (rest : List Piece) :
    ofPieces (text.map .char ++ rest) =
      ⟨text ++ (ofPieces rest).first, (ofPieces rest).slots⟩ := by
  induction text with
  | nil => rfl
  | cons c text ih =>
      rw [List.map_cons, List.cons_append, ofPieces, ih]
      rfl

theorem ofPieces_pieces (d : Decomposition) : ofPieces d.pieces = d := by
  obtain ⟨first, slots⟩ := d
  rw [pieces, ofPieces_map_append]
  induction slots generalizing first with
  | nil => simp [ofPieces]
  | cons slot slots ih =>
      have hbehind := ih slot.2
      rw [mk.injEq] at hbehind
      rw [List.flatMap_cons, List.cons_append, ofPieces, ofPieces_map_append, hbehind.1, hbehind.2]
      simp

theorem Decomposes.first_isPrefix {d : Decomposition} {template : List Char}
    (h : d.Decomposes template) : d.first <+: template := by
  rw [← h.render_eq]
  exact List.prefix_append ..

theorem decomposes_nil : (⟨[], []⟩ : Decomposition).Decomposes [] :=
  ⟨rfl, nofun, slotFree_nil, nofun⟩

theorem Decomposes.cons_char {d : Decomposition} {c : Char} {text : List Char}
    (h : d.Decomposes text) (hslot : c = '\x7b' → slot? text = none) :
    (⟨c :: d.first, d.slots⟩ : Decomposition).Decomposes (c :: text) := by
  refine ⟨congrArg (c :: ·) h.render_eq, h.isWord, slotFree_cons.mpr ⟨?_, h.first_free⟩,
    h.behind_free⟩
  intro hc name hname hclosed
  obtain ⟨rest, rfl⟩ := hclosed.trans h.first_isPrefix
  rw [List.append_assoc, List.singleton_append, slot?_append hname] at hslot
  cases hslot hc

theorem Decomposes.cons_slot {d : Decomposition} {name rest : List Char} (hname : IsWord name)
    (h : d.Decomposes rest) :
    (⟨[], (name, d.first) :: d.slots⟩ : Decomposition).Decomposes (placeholder name ++ rest) := by
  refine ⟨?_, ?_, slotFree_nil, ?_⟩
  · rw [← h.render_eq]
    simp [render]
  · exact List.forall_mem_cons.mpr ⟨hname, h.isWord⟩
  · exact List.forall_mem_cons.mpr ⟨h.first_free, h.behind_free⟩

/-- Every template can be taken apart. -/
theorem decomposes_pieces (template : List Char) :
    (ofPieces (Template.pieces template)).Decomposes template := by
  fun_induction Template.pieces template with
  | case1 => exact decomposes_nil
  | case2 cs name rest hslot ih =>
      have htext : '\x7b' :: cs = placeholder name ++ rest := by
        rw [eq_of_slot? hslot]
        simp [placeholder]
      rw [htext]
      exact .cons_slot (isWord_of_slot? hslot) ih
  | case3 cs hslot ih => exact ih.cons_char fun _ ↦ hslot
  | case4 c cs hc ih => exact ih.cons_char fun hbrace ↦ absurd hbrace hc

theorem render_cons (first name behind : List Char) (slots : List (List Char × List Char)) :
    (⟨first, (name, behind) :: slots⟩ : Decomposition).render placeholder =
      first ++
        '\x7b' :: (name ++ '\x7d' :: (⟨behind, slots⟩ : Decomposition).render placeholder) := by
  simp [render, placeholder]

/-- The slots of a decomposition are those that are found from left to right. -/
theorem pieces_render {first : List Char} {slots : List (List Char × List Char)}
    (hword : ∀ slot ∈ slots, IsWord slot.1) (hfirst : SlotFree first)
    (hbehind : ∀ slot ∈ slots, SlotFree slot.2) :
    Template.pieces ((⟨first, slots⟩ : Decomposition).render placeholder) =
      (⟨first, slots⟩ : Decomposition).pieces := by
  induction slots generalizing first with
  | nil =>
      change Template.pieces (first ++ []) = first.map .char ++ []
      rw [pieces_append hfirst (by simp), Template.pieces]
  | cons slot slots ih =>
      obtain ⟨hname, hword⟩ := List.forall_mem_cons.mp hword
      obtain ⟨hnext, hbehind⟩ := List.forall_mem_cons.mp hbehind
      have hbrace : ∀ c ∈ ('\x7b' :: (slot.1 ++ '\x7d' ::
          (⟨slot.2, slots⟩ : Decomposition).render placeholder)).head?, c = '\x7b' := by
        intro c hc
        exact (Option.some.inj hc).symm
      rw [render_cons, pieces_append hfirst hbrace, pieces_slot hname, ih hword hnext hbehind]
      simp [pieces]

theorem Decomposes.pieces_eq {d : Decomposition} {template : List Char}
    (h : d.Decomposes template) : Template.pieces template = d.pieces := by
  rw [← h.render_eq]
  exact pieces_render h.isWord h.first_free h.behind_free

/-- There is one way only to take a template apart. -/
theorem Decomposes.unique {d e : Decomposition} {template : List Char}
    (hd : d.Decomposes template) (he : e.Decomposes template) : d = e := by
  rw [← ofPieces_pieces d, ← ofPieces_pieces e, ← hd.pieces_eq, ← he.pieces_eq]

/-- A word between braces is a slot wherever it stands. -/
theorem Decomposes.exists_slot {d : Decomposition} {front name back : List Char}
    (h : d.Decomposes (front ++ placeholder name ++ back)) (hname : IsWord name) :
    ∃ before behind after, d.slots = before ++ (name, behind) :: after ∧
      (⟨d.first, before⟩ : Decomposition).render placeholder = front := by
  have hfront := decomposes_pieces front
  have hback := decomposes_pieces back
  generalize ofPieces (Template.pieces front) = f at hfront
  generalize ofPieces (Template.pieces back) = b at hback
  have hwhole : (⟨f.first, f.slots ++ (name, b.first) :: b.slots⟩ : Decomposition).Decomposes
      (front ++ placeholder name ++ back) := by
    refine ⟨?_, ?_, hfront.first_free, ?_⟩
    · rw [← hfront.render_eq, ← hback.render_eq]
      simp [render]
    · exact List.forall_mem_append.mpr
        ⟨hfront.isWord, List.forall_mem_cons.mpr ⟨hname, hback.isWord⟩⟩
    · exact List.forall_mem_append.mpr
        ⟨hfront.behind_free, List.forall_mem_cons.mpr ⟨hback.first_free, hback.behind_free⟩⟩
  obtain rfl := h.unique hwhole
  exact ⟨f.slots, b.first, b.slots, rfl, hfront.render_eq⟩

end Decomposition

/-! ## Filling -/

/-- What is put in the place of a slot: the text of its argument, or the slot as it is written. -/
def shownBy (args : List (String × Argument)) (name : List Char) : List Char :=
  match args.lookup (String.ofList name) with
  | some argument => argument.toText.toList
  | none => placeholder name

theorem shownBy_eq {args : List (String × Argument)} {name : List Char}
    (h : ∀ argument, args.lookup (String.ofList name) = some argument →
      argument.toText.toList = placeholder name) : shownBy args name = placeholder name := by
  rw [shownBy]
  cases hlookup : args.lookup (String.ofList name) with
  | none => rfl
  | some argument => exact h argument hlookup

theorem Decomposition.Decomposes.interpolate_eq {d : Decomposition} {template : String}
    (h : d.Decomposes template.toList) (args : List (String × Argument)) :
    interpolate template args = String.ofList (d.render (shownBy args)) := by
  have hrender : (ofPieces d.pieces).render (shownBy args) = d.pieces.flatMap (Piece.fill args) :=
    render_ofPieces (Piece.fill args) (fun _ ↦ rfl) (fun _ ↦ rfl) d.pieces
  rw [interpolate, h.pieces_eq, ← hrender, ofPieces_pieces]

/-- A template is filled by taking it apart, which can be done in one way only, and by putting the
texts of the arguments in the place of the slots. What was put in is not read again: it is only the
template that is taken apart. -/
theorem interpolate_eq_render (template : String) (args : List (String × Argument)) :
    ∃ d : Decomposition, d.Decomposes template.toList ∧
      (∀ e : Decomposition, e.Decomposes template.toList → e = d) ∧
        (∀ front name back, IsWord name → template.toList = front ++ placeholder name ++ back →
          ∃ before behind after, d.slots = before ++ (name, behind) :: after ∧
            (⟨d.first, before⟩ : Decomposition).render placeholder = front) ∧
          interpolate template args = String.ofList (d.render (shownBy args)) ∧
            ((∀ slot ∈ d.slots, ∀ argument, args.lookup (String.ofList slot.1) = some argument →
                argument.toText.toList = placeholder slot.1) →
              interpolate template args = template) := by
  have hd := Decomposition.decomposes_pieces template.toList
  refine ⟨_, hd, fun e he ↦ he.unique hd, ?_, hd.interpolate_eq args, ?_⟩
  · intro front name back hname htemplate
    rw [htemplate] at hd ⊢
    exact hd.exists_slot hname
  · intro hown
    rw [hd.interpolate_eq, Decomposition.render_congr fun slot hslot ↦ shownBy_eq (hown slot hslot),
      hd.render_eq, String.ofList_toList]

/-- Of nested braces the inner ones are a slot, and what is put there is no slot. -/
example : interpolate "\x7ba\x7bb\x7d\x7d\x7b\x7d"
    [("a", .text "no"), ("b", .text "\x7ba\x7d")] = "\x7ba\x7ba\x7d\x7d\x7b\x7d" := by
  decide +kernel

end AsmLexer.Template
