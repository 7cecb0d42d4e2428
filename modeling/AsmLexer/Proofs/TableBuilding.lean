import AsmLexer.Proofs.Enumeration
import AsmLexer.Proofs.Payload
import AsmLexer.Proofs.ValueText
import Mathlib.Data.List.Induction
import Mathlib.Data.Rat.Cast.Defs
import Mathlib.Logic.Function.Basic

/-!
# Building a table

Which records are instruction tables, said of the whole enumeration of their fields, and what is
wrong with a record that is none: its first field that is faulty after those before it. Main
statement: building a table decides exactly this and throws the message of the fault, and a table
that was built can be reversed. A value that is no opcode and has no text keeps its fault from being
told.
-/

namespace AsmLexer.InstructionTable

/-- A nonempty word of the letters `a` to `z`, said by the order of characters. -/
def Lettered (name : String) : Prop :=
  name ≠ "" ∧ ∀ c ∈ name.toList, 'a' ≤ c ∧ c ≤ 'z'

/-- A whole number that fits in a byte. -/
def IsOpcode (value : Value) : Prop :=
  ∃ n : Nat, n ≤ 255 ∧ value = .number n

/-- The entries of a record that is an instruction table. -/
structure Legal (entries : List (String × Value)) : Prop where
  lettered : ∀ entry ∈ entries, Lettered entry.1
  opcode : ∀ entry ∈ entries, IsOpcode entry.2
  distinct : (entries.map Prod.snd).Nodup

/-- The fault of an entry after others. -/
inductive FaultOf (before : List (String × Value)) : String × Value → Fault → Prop
  | mnemonic {name : String} {value : Value} (hname : ¬Lettered name) :
      FaultOf before (name, value) (.mnemonic name)
  | opcode {name : String} {value : Value} (hname : Lettered name) (hvalue : ¬IsOpcode value) :
      FaultOf before (name, value) (.opcode name value)
  | duplicate {name : String} {n : Nat} (hname : Lettered name) (hle : n ≤ 255)
      (hseen : Value.number n ∈ before.map Prod.snd) :
      FaultOf before (name, .number n) (.duplicate name n)

/-- What is thrown for the fault of an entry after others. -/
inductive Reports (before : List (String × Value)) : String × Value → Thrown → Prop
  | mnemonic {name : String} {value : Value} (hname : ¬Lettered name) :
      Reports before (name, value)
        (.error ("Invalid mnemonic \"" ++ name ++ "\": only lowercase letters are allowed"))
  | opcode {name text : String} {value : Value} (hname : Lettered name) (hvalue : ¬IsOpcode value)
      (htext : value.HasText text) :
      Reports before (name, value) (.error ("Invalid opcode for \"" ++ name ++ "\": " ++ text))
  | textless {name : String} {value : Value} (hname : Lettered name) (htext : value.Textless) :
      Reports before (name, value) (.typeError "Cannot convert object to primitive value")
  | duplicate {name : String} {n : Nat} (hname : Lettered name) (hle : n ≤ 255)
      (hseen : Value.number n ∈ before.map Prod.snd) :
      Reports before (name, .number n)
        (.error ("Duplicate opcode " ++ toString n ++ " for \"" ++ name ++ "\""))

/-- No entry has a fault after those before it. -/
def Faultless (entries : List (String × Value)) : Prop :=
  ∀ before entry after, entries = before ++ entry :: after → ∀ fault, ¬FaultOf before entry fault

/-- The fault of the first entry that has one. -/
def FirstFault (entries : List (String × Value)) (fault : Fault) : Prop :=
  ∃ before entry after, entries = before ++ entry :: after ∧ Faultless before ∧
    FaultOf before entry fault

/-- What is thrown for the first entry that has a fault. -/
def FirstReport (entries : List (String × Value)) (thrown : Thrown) : Prop :=
  ∃ before entry after, entries = before ++ entry :: after ∧ Faultless before ∧
    Reports before entry thrown

/-! ## Faults of one entry -/

theorem isMnemonic_iff {name : String} : IsMnemonic name ↔ Lettered name := by
  have hempty : name.toList ≠ [] ↔ name ≠ "" := by simp
  have hlower : ∀ c : Char, c.isLower = true ↔ 'a' ≤ c ∧ c ≤ 'z' := by
    intro c
    change ('a'.val ≤ c.val && c.val ≤ 'z'.val) = true ↔ _
    rw [Bool.and_eq_true, decide_eq_true_iff, decide_eq_true_iff]
    rfl
  simp only [IsMnemonic, Lettered, hempty, hlower]

theorem byte?_eq_some_iff {value : Value} {n : Nat} :
    byte? value = some n ↔ n ≤ 255 ∧ value = .number n := by
  cases value with
  | number q =>
      rw [byte?, Option.filter_eq_some_iff, Number.natural?_eq_some_iff_eq, Value.number.injEq,
        and_comm, decide_eq_true_iff]
  | _ => simp [byte?]

theorem byte?_eq_none_iff {value : Value} : byte? value = none ↔ ¬IsOpcode value := by
  rw [Option.eq_none_iff_forall_ne_some]
  simp only [ne_eq, byte?_eq_some_iff, IsOpcode, not_exists]

theorem number_natCast_inj {m n : Nat} (h : Value.number m = Value.number n) : m = n :=
  Rat.natCast_inj.mp (Value.number.inj h)

section

variable {before entries : List (String × Value)} {entry : String × Value} {fault other : Fault}

theorem FaultOf.unique (h : FaultOf before entry fault) (h' : FaultOf before entry other) :
    fault = other := by
  cases h with
  | mnemonic hname =>
      cases h' with
      | mnemonic => rfl
      | opcode hname' => exact absurd hname' hname
      | duplicate hname' => exact absurd hname' hname
  | opcode hname hvalue =>
      cases h' with
      | mnemonic hname' => exact absurd hname hname'
      | opcode => rfl
      | duplicate _ hle => exact absurd ⟨_, hle, rfl⟩ hvalue
  | @duplicate name n hname hle =>
      generalize hvalue : Value.number n = value at h'
      cases h' with
      | mnemonic hname' => exact absurd hname hname'
      | opcode _ hvalue' => exact absurd ⟨n, hle, hvalue.symm⟩ hvalue'
      | duplicate => rw [number_natCast_inj hvalue]

theorem not_faultOf_iff :
    (∀ fault, ¬FaultOf before entry fault) ↔
      Lettered entry.1 ∧ IsOpcode entry.2 ∧ entry.2 ∉ before.map Prod.snd := by
  obtain ⟨name, value⟩ := entry
  constructor
  · intro hnone
    have hname : Lettered name := by
      by_contra hname
      exact hnone _ (.mnemonic hname)
    have hvalue : IsOpcode value := by
      by_contra hvalue
      exact hnone _ (.opcode hname hvalue)
    obtain ⟨n, hle, rfl⟩ := hvalue
    exact ⟨hname, ⟨n, hle, rfl⟩, fun hseen ↦ hnone _ (.duplicate hname hle hseen)⟩
  · rintro ⟨hname, hvalue, hnew⟩ fault hfault
    cases hfault with
    | mnemonic hnot => exact hnot hname
    | opcode _ hnot => exact hnot hvalue
    | duplicate _ _ hseen => exact hnew hseen

/-! ## The first fault -/

theorem faultless_nil : Faultless [] := by
  intro before entry after h
  simp at h

theorem faultless_append_singleton :
    Faultless (entries ++ [entry]) ↔
      Faultless entries ∧ ∀ fault, ¬FaultOf entries entry fault := by
  constructor
  · intro h
    refine ⟨?_, h entries entry [] rfl⟩
    intro before first after heq
    exact h before first (after ++ [entry]) (by simp [heq])
  · rintro ⟨hentries, hentry⟩ before first after heq
    rcases List.eq_nil_or_concat after with rfl | ⟨after, last, rfl⟩
    · obtain ⟨rfl, rfl⟩ := List.append_singleton_inj.mp heq
      exact hentry
    · rw [List.concat_eq_append, ← List.cons_append, ← List.append_assoc] at heq
      exact hentries before first after (List.append_singleton_inj.mp heq).1

theorem legal_append_singleton :
    Legal (entries ++ [entry]) ↔
      Legal entries ∧ Lettered entry.1 ∧ IsOpcode entry.2 ∧ entry.2 ∉ entries.map Prod.snd := by
  have hdistinct : ((entries ++ [entry]).map Prod.snd).Nodup ↔
      entry.2 ∉ entries.map Prod.snd ∧ (entries.map Prod.snd).Nodup := by
    rw [List.map_append, List.map_singleton, ← List.concat_eq_append, List.nodup_concat]
  constructor
  · rintro ⟨hlettered, hopcode, hnodup⟩
    obtain ⟨hnew, hnodup⟩ := hdistinct.mp hnodup
    obtain ⟨hlettered, hname⟩ := List.forall_mem_append.mp hlettered
    obtain ⟨hopcode, hvalue⟩ := List.forall_mem_append.mp hopcode
    exact ⟨⟨hlettered, hopcode, hnodup⟩, hname _ List.mem_cons_self, hvalue _ List.mem_cons_self,
      hnew⟩
  · rintro ⟨⟨hlettered, hopcode, hnodup⟩, hname, hvalue, hnew⟩
    exact ⟨List.forall_mem_append.mpr ⟨hlettered, List.forall_mem_singleton.mpr hname⟩,
      List.forall_mem_append.mpr ⟨hopcode, List.forall_mem_singleton.mpr hvalue⟩,
      hdistinct.mpr ⟨hnew, hnodup⟩⟩

theorem faultless_iff_legal : Faultless entries ↔ Legal entries := by
  induction entries using List.reverseRecOn with
  | nil => exact ⟨fun _ ↦ ⟨by simp, by simp, .nil⟩, fun _ ↦ faultless_nil⟩
  | append_singleton entries entry ih =>
      rw [faultless_append_singleton, ih, not_faultOf_iff, legal_append_singleton]

theorem FirstFault.not_legal (h : FirstFault entries fault) : ¬Legal entries := by
  obtain ⟨before, entry, after, heq, -, hfault⟩ := h
  intro hlegal
  exact faultless_iff_legal.mpr hlegal before entry after heq fault hfault

theorem FirstFault.unique (h : FirstFault entries fault) (h' : FirstFault entries other) :
    fault = other := by
  obtain ⟨before, entry, after, rfl, hbefore, hfault⟩ := h
  obtain ⟨before', entry', after', heq, hbefore', hfault'⟩ := h'
  rcases List.append_eq_append_iff.mp heq with ⟨between, hfront, hrear⟩ | ⟨between, hfront, hrear⟩
  · cases between with
    | nil =>
        obtain ⟨rfl, rfl⟩ := List.cons.inj hrear
        rw [hfront, List.append_nil] at hfault'
        exact hfault.unique hfault'
    | cons first between =>
        obtain ⟨rfl, rfl⟩ := List.cons.inj hrear
        exact absurd hfault (hbefore' before entry between hfront fault)
  · cases between with
    | nil =>
        obtain ⟨rfl, rfl⟩ := List.cons.inj hrear
        rw [hfront, List.append_nil] at hfault
        exact hfault.unique hfault'
    | cons first between =>
        obtain ⟨rfl, rfl⟩ := List.cons.inj hrear
        exact absurd hfault' (hbefore before' entry' between hfront other)

end

/-! ## What is thrown -/

section

variable {before entries : List (String × Value)} {entry : String × Value} {thrown : Thrown}

theorem not_isOpcode_of_textless {value : Value} (h : value.Textless) : ¬IsOpcode value := by
  rintro ⟨n, -, rfl⟩
  cases h

theorem thrown_opcode_of_textless {name : String} {value : Value} (h : value.Textless) :
    (Fault.opcode name value).thrown = .typeError "Cannot convert object to primitive value" := by
  rw [Fault.thrown, h.shown_eq]

theorem thrown_opcode_of_hasText {name text : String} {value : Value} (h : value.HasText text) :
    (Fault.opcode name value).thrown =
      .error ("Invalid opcode for \"" ++ name ++ "\": " ++ text) := by
  rw [Fault.thrown, Value.shown_eq_ok_iff.mpr h]

theorem reports_iff :
    Reports before entry thrown ↔ ∃ fault, FaultOf before entry fault ∧ fault.thrown = thrown := by
  constructor
  · intro h
    cases h with
    | mnemonic hname => exact ⟨_, .mnemonic hname, rfl⟩
    | opcode hname hvalue htext => exact ⟨_, .opcode hname hvalue, thrown_opcode_of_hasText htext⟩
    | textless hname htext =>
        exact ⟨_, .opcode hname (not_isOpcode_of_textless htext), thrown_opcode_of_textless htext⟩
    | duplicate hname hle hseen => exact ⟨_, .duplicate hname hle hseen, rfl⟩
  · rintro ⟨fault, hfault, rfl⟩
    cases hfault with
    | mnemonic hname => exact .mnemonic hname
    | @opcode name value hname hvalue =>
        cases htext : value.text? with
        | none =>
            have htextless := Value.text?_eq_none_iff.mp htext
            rw [thrown_opcode_of_textless htextless]
            exact .textless hname htextless
        | some text =>
            have hshown := Value.text?_eq_some_iff.mp htext
            rw [thrown_opcode_of_hasText hshown]
            exact .opcode hname hvalue hshown
    | duplicate hname hle hseen => exact .duplicate hname hle hseen

theorem firstReport_iff :
    FirstReport entries thrown ↔ ∃ fault, FirstFault entries fault ∧ fault.thrown = thrown := by
  constructor
  · rintro ⟨before, entry, after, heq, hbefore, hreports⟩
    obtain ⟨fault, hfault, hthrown⟩ := reports_iff.mp hreports
    exact ⟨fault, ⟨before, entry, after, heq, hbefore, hfault⟩, hthrown⟩
  · rintro ⟨fault, ⟨before, entry, after, heq, hbefore, hfault⟩, hthrown⟩
    exact ⟨before, entry, after, heq, hbefore, reports_iff.mpr ⟨fault, hfault, hthrown⟩⟩

/-- No entry is reported as a value that is no record. -/
theorem FirstReport.ne_notRecord (h : FirstReport entries thrown) :
    thrown ≠ .error "Instruction table must be an object of mnemonic to opcode" := by
  obtain ⟨before, entry, after, -, -, hreports⟩ := h
  intro hthrown
  have hmessage := congrArg (fun t : Thrown ↦ t.message.toList.take 3) hthrown
  cases hreports <;> simp [Thrown.message] at hmessage

end

/-! ## Adding entries -/

/-- The entries of a table as fields of a record. -/
def fields (table : InstructionTable) : List (String × Value) :=
  table.entries.map fun entry ↦ (entry.1, .number entry.2)

theorem number_mem_fields {table : InstructionTable} {n : Nat} :
    Value.number n ∈ table.fields.map Prod.snd ↔ n ∈ table.entries.map (·.2) := by
  simp only [fields, List.map_map, List.mem_map, Function.comp_apply]
  constructor
  · rintro ⟨entry, hentry, heq⟩
    exact ⟨entry, hentry, number_natCast_inj heq⟩
  · rintro ⟨entry, hentry, rfl⟩
    exact ⟨entry, hentry, rfl⟩

theorem addField_cases (table : InstructionTable) (entry : String × Value) :
    (∃ fault, addField table entry = .error fault ∧ FaultOf table.fields entry fault) ∨
      ∃ extended, addField table entry = .ok extended ∧
        extended.fields = table.fields ++ [entry] ∧
          ∀ fault, ¬FaultOf table.fields entry fault := by
  obtain ⟨name, value⟩ := entry
  by_cases hname : IsMnemonic name
  · cases hbyte : byte? value with
    | none =>
        refine .inl ⟨.opcode name value, ?_, ?_⟩
        · simp [addField, hname, hbyte]
        · exact .opcode (isMnemonic_iff.mp hname) (byte?_eq_none_iff.mp hbyte)
    | some n =>
        obtain ⟨hle, rfl⟩ := byte?_eq_some_iff.mp hbyte
        by_cases hseen : n ∈ table.entries.map (·.2)
        · refine .inl ⟨.duplicate name n, ?_, ?_⟩
          · simp only [addField, if_pos hname, hbyte, if_pos hseen]
          · exact .duplicate (isMnemonic_iff.mp hname) hle (number_mem_fields.mpr hseen)
        · refine .inr ⟨⟨table.entries ++ [(name, n)]⟩, ?_, ?_, ?_⟩
          · simp only [addField, if_pos hname, hbyte, if_neg hseen]
          · simp [fields]
          · refine not_faultOf_iff.mpr ⟨isMnemonic_iff.mp hname, ⟨n, hle, rfl⟩, ?_⟩
            exact mt number_mem_fields.mp hseen
  · refine .inl ⟨.mnemonic name, ?_, ?_⟩
    · simp only [addField, if_neg hname]
    · exact .mnemonic (mt isMnemonic_iff.mpr hname)

theorem addFields_cases (table : InstructionTable) (rest : List (String × Value))
    (htable : Faultless table.fields) :
    (∃ fault, addFields table rest = .error fault ∧ FirstFault (table.fields ++ rest) fault) ∨
      ∃ extended, addFields table rest = .ok extended ∧
        extended.fields = table.fields ++ rest ∧ Faultless (table.fields ++ rest) := by
  induction rest generalizing table with
  | nil => exact .inr ⟨table, rfl, (List.append_nil _).symm, by rwa [List.append_nil]⟩
  | cons entry rest ih =>
      rcases addField_cases table entry with ⟨fault, hadd, hfault⟩ |
        ⟨extended, hadd, hfields, hnone⟩
      · refine .inl ⟨fault, ?_, table.fields, entry, rest, rfl, htable, hfault⟩
        rw [addFields, hadd]
      · rw [addFields, hadd, List.append_cons, ← hfields]
        refine ih extended ?_
        rw [hfields]
        exact faultless_append_singleton.mpr ⟨htable, hnone⟩

/-! ## The whole table -/

/-- What comes of entries that are checked in their order, if `first` says what is reported of the
first fault. -/
structure Decides {ε : Type} (entries : List (String × Value)) (first : ε → Prop)
    (result : Except ε InstructionTable) : Prop where
  ok_iff : (∃ table, result = .ok table) ↔ Legal entries
  fields_eq : ∀ table, result = .ok table → table.fields = entries
  error_iff : ∀ e, result = .error e ↔ first e

theorem decides_addFields (entries : List (String × Value)) :
    Decides entries (FirstFault entries) (addFields {} entries) := by
  rcases addFields_cases {} entries faultless_nil with ⟨fault, hrun, hfault⟩ |
    ⟨table, hrun, hfields, hnone⟩
  · change FirstFault entries fault at hfault
    rw [hrun]
    refine ⟨⟨nofun, fun hlegal ↦ absurd hlegal hfault.not_legal⟩, nofun, fun other ↦ ?_⟩
    rw [Except.error.injEq]
    exact ⟨fun heq ↦ heq ▸ hfault, hfault.unique⟩
  · change table.fields = entries at hfields
    change Faultless entries at hnone
    rw [hrun]
    refine ⟨⟨fun _ ↦ faultless_iff_legal.mp hnone, fun _ ↦ ⟨table, rfl⟩⟩, ?_, fun fault ↦ ?_⟩
    · rintro other ⟨rfl⟩
      exact hfields
    · exact ⟨nofun, fun hfault ↦ absurd (faultless_iff_legal.mp hnone) hfault.not_legal⟩

theorem Decides.mapError {ε δ : Type} {entries : List (String × Value)} {first : ε → Prop}
    {result : Except ε InstructionTable} (h : Decides entries first result) {f : ε → δ}
    {mapped : δ → Prop} (hmapped : ∀ d, mapped d ↔ ∃ e, first e ∧ f e = d) :
    Decides entries mapped (result.mapError f) := by
  obtain ⟨hok, hfields, herror⟩ := h
  cases result with
  | ok table =>
      refine ⟨⟨fun _ ↦ hok.mp ⟨table, rfl⟩, fun _ ↦ ⟨table, rfl⟩⟩, ?_, fun d ↦ ?_⟩
      · rintro other ⟨rfl⟩
        exact hfields table rfl
      · rw [hmapped]
        refine ⟨nofun, ?_⟩
        rintro ⟨e, he, -⟩
        cases (herror e).mpr he
  | error e =>
      refine ⟨⟨nofun, fun hlegal ↦ ?_⟩, nofun, fun d ↦ ?_⟩
      · obtain ⟨table, htable⟩ := hok.mpr hlegal
        cases htable
      · rw [hmapped]
        constructor
        · rintro ⟨rfl⟩
          exact ⟨e, (herror e).mp rfl, rfl⟩
        · rintro ⟨other, hother, rfl⟩
          obtain rfl := Except.error.inj ((herror other).mpr hother)
          rfl

/-! ## The reversed table -/

/-- The map with one more entry, from its opcode to its mnemonic. -/
def setReversed (found : Nat → Option String) (entry : String × Nat) : Nat → Option String :=
  Function.update found entry.2 (some entry.1)

/-- The map from opcodes to mnemonics, set entry by entry. -/
def reversed (table : InstructionTable) : Nat → Option String :=
  table.entries.foldl setReversed fun _ ↦ none

theorem foldl_setReversed_eq_some_iff {entries : List (String × Nat)}
    {found : Nat → Option String} (hdistinct : (entries.map Prod.snd).Nodup) {code : Nat}
    {mnemonic : String} :
    entries.foldl setReversed found code = some mnemonic ↔
      (mnemonic, code) ∈ entries ∨
        code ∉ entries.map Prod.snd ∧ found code = some mnemonic := by
  induction entries generalizing found with
  | nil => simp
  | cons entry entries ih =>
      obtain ⟨first, opcode⟩ := entry
      obtain ⟨hnew, hdistinct⟩ := List.nodup_cons.mp hdistinct
      rw [List.foldl_cons, ih hdistinct]
      by_cases hcode : code = opcode
      · subst hcode
        have hnot : (mnemonic, code) ∉ entries := fun hmem ↦ hnew (List.mem_map.mpr ⟨_, hmem, rfl⟩)
        simp [setReversed, hnot, hnew, eq_comm]
      · simp [setReversed, hcode]

theorem reversed_eq_some_iff {table : InstructionTable}
    (htable : (table.entries.map Prod.snd).Nodup) {code : Nat} {mnemonic : String} :
    table.reversed code = some mnemonic ↔ (mnemonic, code) ∈ table.entries := by
  rw [reversed, foldl_setReversed_eq_some_iff htable]
  simp

theorem map_fst_fields (table : InstructionTable) :
    table.fields.map Prod.fst = table.entries.map Prod.fst := by
  simp [fields]

theorem Legal.nodup_opcodes {table : InstructionTable} (h : Legal table.fields) :
    (table.entries.map Prod.snd).Nodup := by
  have hdistinct := h.distinct
  rw [fields, List.map_map] at hdistinct
  refine List.Nodup.of_map (fun n : Nat ↦ Value.number n) ?_
  rwa [List.map_map]

/-! ## Building -/

/-- The ways from opcodes to mnemonics are the table turned round. -/
structure Inverts (table : InstructionTable) : Prop where
  reversed_iff : ∀ code mnemonic,
    table.reversed code = some mnemonic ↔ table.opcode? mnemonic = some code
  mnemonic_iff : ∀ q mnemonic, table.mnemonic? q = some mnemonic ↔
    ∃ code : Nat, q = code ∧ table.opcode? mnemonic = some code

section

variable {value : Value} {table : InstructionTable}

theorem legal_of_build (h : build value = .ok table) : Legal table.fields := by
  cases value with
  | record fields =>
      have hdecides := decides_addFields (Value.enumerate fields)
      rw [hdecides.fields_eq table h]
      exact hdecides.ok_iff.mp ⟨table, h⟩
  | _ => cases h

theorem nodup_mnemonics_of_build (h : build value = .ok table) :
    (table.entries.map Prod.fst).Nodup := by
  cases value with
  | record fields =>
      rw [← map_fst_fields, (decides_addFields (Value.enumerate fields)).fields_eq table h]
      exact (Value.enumerates_enumerate fields).nodup_names
  | _ => cases h

theorem inverts_of_build (h : build value = .ok table) : table.Inverts := by
  have hnames := nodup_mnemonics_of_build h
  have hopcodes := (legal_of_build h).nodup_opcodes
  constructor
  · intro code mnemonic
    rw [reversed_eq_some_iff hopcodes, opcode?_eq_some_iff hnames]
  · intro q mnemonic
    simp only [mnemonic?_eq_some_iff hopcodes, opcode?_eq_some_iff hnames]

end

theorem ofValue_eq_ok_iff {value : Value} {table : InstructionTable} :
    ofValue value = .ok table ↔ build value = .ok table := by
  rw [ofValue]
  cases build value <;> simp [Except.mapError]

theorem decides_ofValue_record (fields : List (String × Value)) :
    Decides (Value.enumerate fields) (FirstReport (Value.enumerate fields))
      (ofValue (.record fields)) :=
  (decides_addFields _).mapError fun _ ↦ firstReport_iff

/-- A value that is a record makes a table if its fields, each name once and in the order of
enumeration, are the entries of one; else what is thrown tells the first fault among them, or that
the value there has no text. A table that was made has exactly these entries, and reversing it gives
its inverse. -/
theorem ofValue_decides (value : Value) :
    (ofValue value = .error (.error "Instruction table must be an object of mnemonic to opcode") ↔
      ∀ fields, value ≠ .record fields) ∧
    (∀ fields, value = .record fields → ∃ entries,
      (∀ other, Value.Enumerates fields other ↔ other = entries) ∧
        Decides entries (FirstReport entries) (ofValue value)) ∧
    ∀ table, ofValue value = .ok table → table.Inverts := by
  refine ⟨?_, ?_, fun table htable ↦ inverts_of_build (ofValue_eq_ok_iff.mp htable)⟩
  · cases value with
    | record fields =>
        refine ⟨fun h ↦ ?_, fun h ↦ absurd rfl (h fields)⟩
        exact absurd rfl (((decides_ofValue_record fields).error_iff _).mp h).ne_notRecord
    | _ => exact ⟨fun _ ↦ nofun, fun _ ↦ rfl⟩
  · rintro fields rfl
    refine ⟨Value.enumerate fields, fun other ↦ ?_, decides_ofValue_record fields⟩
    have hfields := Value.enumerates_enumerate fields
    constructor
    · intro hother
      exact hother.unique hfields
    · rintro rfl
      exact hfields

/-- The one opcode is a record without a text. -/
def textlessOpcode : List (String × Value) :=
  [("nop", .record [("toString", .number 1)])]

/-- The first fault is that of the opcode, but no error says so. -/
theorem not_error_of_textlessOpcode :
    FirstFault textlessOpcode (.opcode "nop" (.record [("toString", .number 1)])) ∧
      ¬∃ text, ofValue (.record textlessOpcode) =
        .error (.error ("Invalid opcode for \"nop\": " ++ text)) := by
  have hlettered : Lettered "nop" := isMnemonic_iff.mp (by decide)
  have hopcode : ¬IsOpcode (.record [("toString", .number 1)]) := by
    rintro ⟨n, -, hn⟩
    cases hn
  refine ⟨⟨[], _, [], rfl, faultless_nil, .opcode hlettered hopcode⟩, ?_⟩
  rintro ⟨text, htext⟩
  have hindex : Value.arrayIndex? "nop" = none := by
    decide +kernel
  have henumerate : Value.enumerate textlessOpcode = textlessOpcode := by
    simp [textlessOpcode, Value.enumerate, Value.setField, hindex]
  have hthrown : ofValue (.record textlessOpcode) =
      .error (.typeError "Cannot convert object to primitive value") := by
    rw [ofValue, build, henumerate, textlessOpcode, addFields, addField,
      if_pos (isMnemonic_iff.mpr hlettered)]
    rfl
  rw [hthrown] at htext
  cases htext

end AsmLexer.InstructionTable
