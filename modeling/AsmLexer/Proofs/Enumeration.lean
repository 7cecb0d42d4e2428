import AsmLexer.Proofs.Numeral
import AsmLexer.Value.Fields
import Mathlib.Data.List.Nodup

/-!
# Enumerated fields

The order in which the fields of a record are enumerated, told apart from how it is brought about:
each name stands there once with its last value, array indices first in ascending order, then the
other names as they first appear. Main statement: the enumeration is in this order, and no other
list is.
-/

namespace AsmLexer.Value

/-- The name is the numeral of a number that an array may have as an index. -/
def IsIndex (name : String) (i : Nat) : Prop :=
  name = toString i ∧ i < 4294967295

/-- The name `a` is enumerated before `b` if `names` are all names as they are written. -/
inductive Precedes (names : List String) (a b : String) : Prop
  | indices {i j : Nat} (ha : IsIndex a i) (hb : IsIndex b j) (hlt : i < j)
  | index {i : Nat} (ha : IsIndex a i) (hb : ∀ j, ¬IsIndex b j)
  | names (ha : ∀ i, ¬IsIndex a i) (hb : ∀ j, ¬IsIndex b j)
      (hlt : names.idxOf a < names.idxOf b)

/-- Each name has the last value that is written for it, and the names are in order. -/
structure Enumerates (fields entries : List (String × Value)) : Prop where
  mem_iff : ∀ name value, (name, value) ∈ entries ↔ fields.reverse.lookup name = some value
  ordered : entries.Pairwise fun a b ↦ Precedes (fields.map Prod.fst) a.1 b.1

/-! ## Indices -/

theorem arrayIndex?_eq_some_iff {name : String} {i : Nat} :
    arrayIndex? name = some i ↔ IsIndex name i := by
  unfold arrayIndex? IsIndex
  dsimp only
  constructor
  · intro h
    split at h
    · rename_i hindex
      obtain rfl := Option.some.inj h
      exact ⟨hindex.2.1.symm, hindex.2.2⟩
    · cases h
  · rintro ⟨rfl, hlt⟩
    have hdigits : (toString i).toList.all Char.isDigit = true := by
      rw [List.all_eq_true, Text.toList_toString]
      exact fun c hc ↦ Nat.isDigit_of_mem_toDigits (by decide) (by decide) hc
    rw [Text.digitsValue_toString, if_pos ⟨hdigits, rfl, hlt⟩]

theorem arrayIndex?_eq_none_iff {name : String} :
    arrayIndex? name = none ↔ ∀ i, ¬IsIndex name i := by
  rw [Option.eq_none_iff_forall_ne_some]
  simp only [ne_eq, arrayIndex?_eq_some_iff]

theorem IsIndex.unique {name : String} {i j : Nat} (h : IsIndex name i) (h' : IsIndex name j) :
    i = j := by
  rw [← arrayIndex?_eq_some_iff] at h h'
  exact Option.some.inj (h.symm.trans h')

/-! ## Only one list -/

theorem Precedes.asymm {names : List String} {a b : String} (h : Precedes names a b) :
    ¬Precedes names b a := by
  intro h'
  cases h with
  | indices ha hb hlt =>
      cases h' with
      | indices hb' ha' hlt' =>
          rw [ha.unique ha', hb.unique hb'] at hlt
          exact Nat.lt_asymm hlt hlt'
      | index _ ha' => exact ha' _ ha
      | names hb' => exact hb' _ hb
  | index ha hb =>
      cases h' with
      | indices hb' => exact hb _ hb'
      | index hb' => exact hb _ hb'
      | names _ ha' => exact ha' _ ha
  | names _ hb hlt =>
      cases h' with
      | indices hb' => exact hb _ hb'
      | index hb' => exact hb _ hb'
      | names _ _ hlt' => exact Nat.lt_asymm hlt hlt'

theorem Precedes.irrefl {names : List String} {a : String} : ¬Precedes names a a :=
  fun h ↦ h.asymm h

namespace Enumerates

variable {fields entries other : List (String × Value)}

theorem nodup_names (h : Enumerates fields entries) : (entries.map Prod.fst).Nodup := by
  rw [List.Nodup, List.pairwise_map]
  refine h.ordered.imp ?_
  intro a b hab heq
  rw [heq] at hab
  exact hab.irrefl

theorem unique (h : Enumerates fields entries) (h' : Enumerates fields other) :
    entries = other := by
  have hperm : entries.Perm other := by
    rw [List.perm_ext_iff_of_nodup (List.Nodup.of_map _ h.nodup_names)
      (List.Nodup.of_map _ h'.nodup_names)]
    rintro ⟨name, value⟩
    rw [h.mem_iff, h'.mem_iff]
  refine hperm.eq_of_pairwise ?_ h.ordered h'.ordered
  intro a b _ _ hab hba
  exact absurd hba hab.asymm

end Enumerates

/-! ## Setting fields -/

theorem map_fst_setField (name : String) (value : Value) (done : List (String × Value)) :
    (setField name value done).map Prod.fst =
      if name ∈ done.map Prod.fst then done.map Prod.fst else done.map Prod.fst ++ [name] := by
  induction done with
  | nil => rfl
  | cons entry done ih =>
      obtain ⟨other, old⟩ := entry
      by_cases hname : other = name
      · simp [setField, hname]
      · rw [setField, if_neg hname, List.map_cons, ih]
        by_cases hmem : name ∈ done.map Prod.fst <;> simp [hmem, Ne.symm hname]

theorem mem_setField {name other : String} {value seen : Value} {done : List (String × Value)}
    (hdone : (done.map Prod.fst).Nodup) :
    (other, seen) ∈ setField name value done ↔
      if other = name then seen = value else (other, seen) ∈ done := by
  induction done with
  | nil => simp [setField]
  | cons entry done ih =>
      obtain ⟨first, old⟩ := entry
      obtain ⟨hfirst, hdone⟩ := List.nodup_cons.mp hdone
      by_cases hname : first = name
      · subst hname
        have hnot : (first, seen) ∉ done := fun hmem ↦ hfirst (List.mem_map.mpr ⟨_, hmem, rfl⟩)
        by_cases hother : other = first <;> simp_all [setField]
      · rw [setField, if_neg hname, List.mem_cons, ih hdone]
        by_cases hother : other = name <;> simp_all [eq_comm]

/-- What is kept when the fields are set one after another. -/
structure Collected (fields done : List (String × Value)) : Prop where
  mem_iff : ∀ name value, (name, value) ∈ done ↔ fields.reverse.lookup name = some value
  ordered : (done.map Prod.fst).Pairwise fun a b ↦
    (fields.map Prod.fst).idxOf a < (fields.map Prod.fst).idxOf b

namespace Collected

variable {fields done : List (String × Value)}

theorem nodup_names (h : Collected fields done) : (done.map Prod.fst).Nodup := by
  refine h.ordered.imp ?_
  intro a b hlt heq
  rw [heq] at hlt
  exact Nat.lt_irrefl _ hlt

theorem mem_names_iff (h : Collected fields done) {name : String} :
    name ∈ done.map Prod.fst ↔ name ∈ fields.map Prod.fst := by
  have hlookup : name ∈ done.map Prod.fst ↔ fields.reverse.lookup name ≠ none := by
    rw [Option.ne_none_iff_exists']
    constructor
    · intro hmem
      obtain ⟨⟨_, value⟩, hentry, rfl⟩ := List.mem_map.mp hmem
      exact ⟨value, (h.mem_iff _ _).mp hentry⟩
    · rintro ⟨value, hvalue⟩
      exact List.mem_map.mpr ⟨_, (h.mem_iff _ _).mpr hvalue, rfl⟩
  rw [hlookup, ne_eq, List.lookup_eq_none_iff]
  simp

theorem setField (h : Collected fields done) (name : String) (value : Value) :
    Collected (fields ++ [(name, value)]) (setField name value done) := by
  constructor
  · intro other seen
    rw [mem_setField h.nodup_names, h.mem_iff, List.reverse_append, List.reverse_singleton,
      List.singleton_append, List.lookup_cons]
    by_cases hother : other = name
    · simp [hother, eq_comm]
    · have hne : (other == name) = false := by simpa using hother
      rw [if_neg hother, hne]
  -- The names that were there keep their places, and a new one comes last.
  · have hkept : (done.map Prod.fst).Pairwise fun a b ↦
        ((fields ++ [(name, value)]).map Prod.fst).idxOf a <
          ((fields ++ [(name, value)]).map Prod.fst).idxOf b := by
      refine h.ordered.imp_of_mem ?_
      intro a b ha hb hlt
      rwa [List.map_append, List.idxOf_append_of_mem (h.mem_names_iff.mp ha),
        List.idxOf_append_of_mem (h.mem_names_iff.mp hb)]
    rw [map_fst_setField]
    split
    · exact hkept
    · rename_i hnew
      refine List.pairwise_append.mpr ⟨hkept, List.pairwise_singleton _ _, ?_⟩
      intro a ha b hb
      obtain rfl := List.mem_singleton.mp hb
      have hold := h.mem_names_iff.mp ha
      rw [List.map_append, List.idxOf_append_of_mem hold,
        List.idxOf_append_of_notMem (mt h.mem_names_iff.mpr hnew)]
      exact Nat.lt_of_lt_of_le (List.idxOf_lt_length_of_mem hold) (Nat.le_add_right _ _)

theorem foldl (h : Collected fields done) (rest : List (String × Value)) :
    Collected (fields ++ rest)
      (rest.foldl (fun done field ↦ Value.setField field.1 field.2 done) done) := by
  induction rest generalizing fields done with
  | nil =>
      rw [List.append_nil]
      exact h
  | cons field rest ih =>
      rw [List.append_cons]
      exact ih (h.setField field.1 field.2)

end Collected

/-! ## The enumeration -/

theorem collected_distinct (fields : List (String × Value)) :
    Collected fields (fields.foldl (fun done field ↦ setField field.1 field.2 done) []) := by
  have hnil : Collected [] [] := ⟨by simp, .nil⟩
  exact hnil.foldl fields

/-- The fields whose names are array indices, each after its index. -/
def indexed (distinct : List (String × Value)) : List (Nat × String × Value) :=
  distinct.filterMap fun field ↦ (arrayIndex? field.1).map (·, field)

section

variable {distinct : List (String × Value)}

theorem mem_indexed {i : Nat} {field : String × Value} :
    (i, field) ∈ indexed distinct ↔ field ∈ distinct ∧ IsIndex field.1 i := by
  rw [indexed, List.mem_filterMap, ← arrayIndex?_eq_some_iff]
  constructor
  · rintro ⟨other, hother, hindex⟩
    obtain ⟨j, hj, heq⟩ := Option.map_eq_some_iff.mp hindex
    obtain ⟨rfl, rfl⟩ := Prod.mk.inj heq
    exact ⟨hother, hj⟩
  · rintro ⟨hfield, hindex⟩
    exact ⟨field, hfield, by rw [hindex, Option.map_some]⟩

theorem mem_sorted {i : Nat} {field : String × Value} :
    (i, field) ∈ (indexed distinct).mergeSort (fun a b ↦ a.1 ≤ b.1) ↔
      field ∈ distinct ∧ IsIndex field.1 i := by
  rw [List.mem_mergeSort, mem_indexed]

theorem mem_named {field : String × Value} :
    field ∈ distinct.filter (fun field ↦ (arrayIndex? field.1).isNone) ↔
      field ∈ distinct ∧ ∀ i, ¬IsIndex field.1 i := by
  rw [List.mem_filter, Option.isNone_iff_eq_none, arrayIndex?_eq_none_iff]

theorem pairwise_ne_indexed (hdistinct : (distinct.map Prod.fst).Nodup) :
    (indexed distinct).Pairwise fun a b ↦ a.1 ≠ b.1 := by
  rw [indexed, List.pairwise_filterMap]
  refine (List.pairwise_map.mp hdistinct).imp ?_
  intro a b hne a' ha b' hb heq
  obtain ⟨i, hi, rfl⟩ := Option.map_eq_some_iff.mp ha
  obtain ⟨j, hj, rfl⟩ := Option.map_eq_some_iff.mp hb
  obtain rfl : i = j := heq
  exact hne ((arrayIndex?_eq_some_iff.mp hi).1.trans (arrayIndex?_eq_some_iff.mp hj).1.symm)

theorem pairwise_lt_sorted (hdistinct : (distinct.map Prod.fst).Nodup) :
    ((indexed distinct).mergeSort fun a b ↦ a.1 ≤ b.1).Pairwise fun a b ↦ a.1 < b.1 := by
  have hperm : ((indexed distinct).mergeSort fun a b ↦ a.1 ≤ b.1).Perm (indexed distinct) :=
    List.mergeSort_perm ..
  have hsorted : ((indexed distinct).mergeSort fun a b ↦ a.1 ≤ b.1).Pairwise
      fun a b ↦ decide (a.1 ≤ b.1) = true :=
    List.pairwise_mergeSort (by simp; omega) (by simp; omega) (indexed distinct)
  have hstrict := hsorted.and ((pairwise_ne_indexed hdistinct).perm hperm.symm Ne.symm)
  exact hstrict.imp fun hab ↦ Nat.lt_of_le_of_ne (of_decide_eq_true hab.1) hab.2

end

theorem enumerates_enumerate (fields : List (String × Value)) :
    Enumerates fields (enumerate fields) := by
  have hdistinct := collected_distinct fields
  unfold enumerate
  generalize fields.foldl (fun done field ↦ setField field.1 field.2 done) [] = distinct
    at hdistinct
  change Enumerates fields (((indexed distinct).mergeSort fun a b ↦ a.1 ≤ b.1).map (·.2) ++
    distinct.filter fun field ↦ (arrayIndex? field.1).isNone)
  constructor
  · intro name value
    rw [← hdistinct.mem_iff, List.mem_append, List.mem_map, mem_named]
    constructor
    · rintro (⟨⟨i, _⟩, hfield, rfl⟩ | ⟨hfield, -⟩)
      · exact (mem_sorted.mp hfield).1
      · exact hfield
    · intro hfield
      by_cases hindex : ∃ i, IsIndex name i
      · obtain ⟨i, hi⟩ := hindex
        exact .inl ⟨(i, name, value), mem_sorted.mpr ⟨hfield, hi⟩, rfl⟩
      · exact .inr ⟨hfield, not_exists.mp hindex⟩
  · refine List.pairwise_append.mpr ⟨List.pairwise_map.mpr ?_, ?_, ?_⟩
    · refine (pairwise_lt_sorted hdistinct.nodup_names).imp_of_mem ?_
      intro a b ha hb hlt
      exact .indices (mem_sorted.mp ha).2 (mem_sorted.mp hb).2 hlt
    · refine ((List.pairwise_map.mp hdistinct.ordered).sublist List.filter_sublist).imp_of_mem ?_
      intro a b ha hb hlt
      exact .names (mem_named.mp ha).2 (mem_named.mp hb).2 hlt
    · intro a ha b hb
      obtain ⟨entry, hentry, rfl⟩ := List.mem_map.mp ha
      exact .index (mem_sorted.mp hentry).2 (mem_named.mp hb).2

end AsmLexer.Value
