import AsmLexer.Value

/-!
# Values with and without a text

The text of a value as a relation between the two, and which values have none: a record with a field
of the one name that texts are asked by, and a list that holds such a value at any depth.
-/

namespace AsmLexer.Value

mutual

inductive HasText : Value → String → Prop
  | null : HasText .null "null"
  | false : HasText (.bool false) "false"
  | true : HasText (.bool true) "true"
  | number (q : Rat) : HasText (.number q) (Number.text q)
  | infinity : HasText (.infinity false) "Infinity"
  | negInfinity : HasText (.infinity true) "-Infinity"
  | string (s : String) : HasText (.string s) s
  | list {elements : List Value} {texts : List String} (h : HaveTexts elements texts) :
      HasText (.list elements) (",".intercalate texts)
  | record {fields : List (String × Value)} (h : "toString" ∉ fields.map (·.1)) :
      HasText (.record fields) "[object Object]"

/-- The texts of values inside a list, where an absent one has an empty text. -/
inductive HaveTexts : List Value → List String → Prop
  | nil : HaveTexts [] []
  | null {rest : List Value} {texts : List String} (hrest : HaveTexts rest texts) :
      HaveTexts (.null :: rest) ("" :: texts)
  | cons {first : Value} {text : String} {rest : List Value} {texts : List String}
      (hne : first ≠ .null) (hfirst : HasText first text) (hrest : HaveTexts rest texts) :
      HaveTexts (first :: rest) (text :: texts)

end

variable {value : Value} {text : String}

/-! ## The text of a value -/

theorem elementTexts?_cons {first : Value} (rest : List Value) (hne : first ≠ .null) :
    elementTexts? (first :: rest) =
      first.text?.bind fun text ↦ (elementTexts? rest).map (text :: ·) := by
  cases first with
  | null => exact absurd rfl hne
  | _ => rfl

theorem elementTexts?_eq_some_iff {elements : List Value} {texts : List String}
    (h : ∀ value ∈ elements, ∀ text, value.text? = some text ↔ value.HasText text) :
    elementTexts? elements = some texts ↔ HaveTexts elements texts := by
  induction elements generalizing texts with
  | nil =>
      rw [elementTexts?, Option.some.injEq]
      constructor
      · rintro rfl
        exact .nil
      · rintro ⟨⟩
        rfl
  | cons first rest ih =>
      obtain ⟨hfirst, hrest⟩ := List.forall_mem_cons.mp h
      by_cases hnull : first = .null
      · subst hnull
        rw [elementTexts?, Option.map_eq_some_iff]
        constructor
        · rintro ⟨texts, htexts, rfl⟩
          exact .null ((ih hrest).mp htexts)
        · intro htexts
          cases htexts with
          | null htexts => exact ⟨_, (ih hrest).mpr htexts, rfl⟩
          | cons hne => exact absurd rfl hne
      · simp only [elementTexts?_cons rest hnull, Option.bind_eq_some_iff, Option.map_eq_some_iff]
        constructor
        · rintro ⟨text, htext, texts, htexts, rfl⟩
          exact .cons hnull ((hfirst text).mp htext) ((ih hrest).mp htexts)
        · intro htexts
          cases htexts with
          | null => exact absurd rfl hnull
          | cons _ htext htexts =>
              exact ⟨_, (hfirst _).mpr htext, _, (ih hrest).mpr htexts, rfl⟩

theorem text?_eq_some_iff : value.text? = some text ↔ value.HasText text := by
  induction value generalizing text with
  | null => exact ⟨fun | rfl => .null, fun | .null => rfl⟩
  | bool b =>
      cases b with
      | false => exact ⟨fun | rfl => .false, fun | .false => rfl⟩
      | true => exact ⟨fun | rfl => .true, fun | .true => rfl⟩
  | number q => exact ⟨fun | rfl => .number q, fun | .number _ => rfl⟩
  | infinity negative =>
      cases negative with
      | false => exact ⟨fun | rfl => .infinity, fun | .infinity => rfl⟩
      | true => exact ⟨fun | rfl => .negInfinity, fun | .negInfinity => rfl⟩
  | string s => exact ⟨fun | rfl => .string s, fun | .string _ => rfl⟩
  | list elements ih =>
      have helements : ∀ value ∈ elements, ∀ text, value.text? = some text ↔ value.HasText text :=
        fun value hmem _ ↦ ih value hmem
      rw [text?, Option.map_eq_some_iff]
      constructor
      · rintro ⟨texts, htexts, rfl⟩
        exact .list ((elementTexts?_eq_some_iff helements).mp htexts)
      · intro h
        cases h with
        | list htexts =>
            exact ⟨_, (elementTexts?_eq_some_iff helements).mpr htexts, rfl⟩
  | record fields _ =>
      rw [text?, recordText?]
      constructor
      · intro h
        split at h
        · cases h
        · rename_i hname
          obtain rfl := Option.some.inj h
          exact .record hname
      · intro h
        cases h with
        | record hname => rw [if_neg hname]

/-! ## Values without a text -/

inductive Textless : Value → Prop
  | record {fields : List (String × Value)} (hname : "toString" ∈ fields.map (·.1)) :
      Textless (.record fields)
  | list {elements : List Value} {value : Value} (hmem : value ∈ elements)
      (hvalue : Textless value) : Textless (.list elements)

theorem textless_record_iff {fields : List (String × Value)} :
    (record fields).Textless ↔ "toString" ∈ fields.map (·.1) :=
  ⟨fun | .record hname => hname, .record⟩

theorem textless_list_iff {elements : List Value} :
    (list elements).Textless ↔ ∃ value ∈ elements, value.Textless :=
  ⟨fun | .list hmem hvalue => ⟨_, hmem, hvalue⟩, fun ⟨_, hmem, hvalue⟩ ↦ .list hmem hvalue⟩

theorem elementTexts?_eq_none_iff {elements : List Value} :
    elementTexts? elements = none ↔ ∃ value ∈ elements, value.text? = none := by
  induction elements with
  | nil => simp [elementTexts?]
  | cons first rest ih =>
      by_cases hnull : first = .null
      · subst hnull
        simp [elementTexts?, text?, ih]
      · rw [elementTexts?_cons rest hnull]
        cases hfirst : first.text? with
        | none => simp [hfirst]
        | some text => simp [hfirst, ih]

theorem text?_eq_none_iff : value.text? = none ↔ value.Textless := by
  induction value with
  | list elements ih =>
      rw [text?, Option.map_eq_none_iff, elementTexts?_eq_none_iff, textless_list_iff]
      exact exists_congr fun value ↦ and_congr_right fun hmem ↦ ih value hmem
  | record fields _ =>
      rw [text?, recordText?, textless_record_iff]
      simp
  | bool b => cases b <;> exact ⟨nofun, nofun⟩
  | _ => exact ⟨nofun, nofun⟩

/-! ## Asking for the text -/

theorem shown_eq_ok_iff : value.shown = .ok text ↔ value.HasText text := by
  rw [shown, ← text?_eq_some_iff]
  cases value.text? <;> simp

theorem Textless.shown_eq (h : value.Textless) :
    value.shown = .error (.typeError "Cannot convert object to primitive value") := by
  rw [shown, text?_eq_none_iff.mpr h]

end AsmLexer.Value
