import AsmLexer.Proofs.Payload
import AsmLexer.Source.Files
import AsmLexer.Token.Store

/-!
# Which numbers name something

The elements of an array stand at the natural numbers below its size, and a lookup finds something
by these numbers only: not by a negative number or a fraction, nor by one that is not finite.
-/

namespace AsmLexer

theorem Number.exists_eq_natCast_iff {q : Rat} :
    (∃ n : Nat, q = n) ↔ q.isInt = true ∧ 0 ≤ q := by
  have hwhole : q.isInt = true ↔ q.den = 1 := beq_iff_eq
  rw [hwhole, ← Rat.num_nonneg]
  constructor
  · rintro ⟨n, rfl⟩
    exact ⟨rfl, Int.natCast_nonneg n⟩
  · rintro ⟨hden, hnum⟩
    refine ⟨q.num.toNat, natural?_eq_some_iff_eq.mp ?_⟩
    exact natural?_eq_some_iff.mpr ⟨hden, (Int.toNat_of_nonneg hnum).symm⟩

theorem Handle.find?_eq_some_iff {α : Type} {id : Handle} {xs : Array α} {x : α} :
    find? id xs = some x ↔ ∃ k : Nat, id = k ∧ xs[k]? = some x := by
  rw [find?, Option.bind_eq_some_iff]
  simp only [Number.natural?_eq_some_iff_eq]

namespace AnyHandle

variable {α : Type} {refusal : String} {find : Handle → Except LookupFault α} {id : AnyHandle}
  {xs : Array α}

/-- The indices of `count` elements are the whole numbers from zero up to below `count`. -/
theorem exists_index_iff {count : Nat} :
    (∃ k : Nat, id = .finite k ∧ k < count) ↔
      id.isInt = true ∧ id.atLeast 0 = true ∧ id.below count = true := by
  cases id with
  | finite q =>
      simp only [isInt, atLeast, below, decide_eq_true_iff, finite.injEq]
      rw [← and_assoc, ← Number.exists_eq_natCast_iff]
      constructor
      · rintro ⟨k, rfl, hlt⟩
        exact ⟨⟨k, rfl⟩, Rat.natCast_lt_natCast.mpr hlt⟩
      · rintro ⟨⟨k, rfl⟩, hlt⟩
        exact ⟨k, rfl, Rat.natCast_lt_natCast.mp hlt⟩
  | infinite negative => simp [isInt]
  | nan => simp [isInt]

theorem lookup_eq_ok_iff (hfind : ∀ q x, find q = .ok x ↔ Handle.find? q xs = some x) {x : α} :
    lookup refusal find id = .ok x ↔ ∃ k : Nat, id = .finite k ∧ xs[k]? = some x := by
  cases id with
  | finite q =>
      have hlookup : lookup refusal find (.finite q) = .ok x ↔ find q = .ok x := by
        rw [lookup]
        cases find q <;> simp [Except.mapError]
      rw [hlookup, hfind, Handle.find?_eq_some_iff]
      simp only [finite.injEq]
  | infinite negative => simp [lookup]
  | nan => simp [lookup]

theorem exists_lookup_iff (hfind : ∀ q x, find q = .ok x ↔ Handle.find? q xs = some x) :
    (∃ x, lookup refusal find id = .ok x) ↔
      id.isInt = true ∧ id.atLeast 0 = true ∧ id.below xs.size = true := by
  simp only [lookup_eq_ok_iff hfind]
  rw [← exists_index_iff]
  constructor
  · rintro ⟨x, k, rfl, hget⟩
    obtain ⟨hlt, -⟩ := Array.getElem?_eq_some_iff.mp hget
    exact ⟨k, rfl, hlt⟩
  · rintro ⟨k, rfl, hlt⟩
    exact ⟨_, k, rfl, Array.getElem?_eq_getElem hlt⟩

end AnyHandle

namespace Files

variable {files : Files} {id : AnyHandle} {source : SourceFile}

theorem get_eq_ok_iff (q : Handle) (source : SourceFile) :
    files.get q = .ok source ↔ Handle.find? q files.files = some source := by
  rw [get]
  cases Handle.find? q files.files <;> simp

/-- A file is found by exactly the numbers that pass for valid. -/
theorem exists_getAny_iff :
    (∃ source, files.getAny id = .ok source) ↔ files.isValidAny id = true := by
  rw [getAny, lookupAny, AnyHandle.exists_lookup_iff get_eq_ok_iff, isValidAny, Bool.and_eq_true,
    Bool.and_eq_true, and_assoc, count]

end Files

namespace TokenStore

variable {store : TokenStore} {id : AnyHandle} {t : Token}

theorem get_eq_ok_iff (q : Handle) (t : Token) :
    store.get q = .ok t ↔ Handle.find? q store.tokens = some t := by
  rw [get]
  cases Handle.find? q store.tokens <;> simp

theorem getAny_eq_ok_iff :
    store.getAny id = .ok t ↔ ∃ k : Nat, id = .finite k ∧ store.toList[k]? = some t := by
  rw [getAny, AnyHandle.lookup_eq_ok_iff get_eq_ok_iff]
  simp only [toList, Array.getElem?_toList]

/-- A token is found by the whole ones among the numbers that pass for valid. -/
theorem exists_getAny_iff :
    (∃ t, store.getAny id = .ok t) ↔ id.isInt = true ∧ store.isValidAny id = true := by
  rw [getAny, AnyHandle.exists_lookup_iff get_eq_ok_iff, isValidAny, Bool.and_eq_true, count]

end TokenStore

end AsmLexer
