import AsmLexer.Proofs.NameReading
import AsmLexer.Proofs.WithinLine
import AsmLexer.Token.Display
import Mathlib.Algebra.Group.Int.Defs
import Mathlib.Algebra.Group.Nat.Defs
import Mathlib.Data.List.Nodup

/-!
# Numbers in tokens

Registers, opcodes and literals stand for numbers, and the grammar keeps each of these within its
bounds. A token with such a number can always be shown.
-/

namespace AsmLexer

open Grammar Text

theorem Number.natural?_eq_some_iff_eq {q : Rat} {n : Nat} : natural? q = some n ↔ q = n := by
  rw [natural?_eq_some_iff]
  constructor
  · rintro ⟨hden, hnum⟩
    exact Rat.ext (by simpa using hnum) (by simpa using hden)
  · rintro rfl
    exact ⟨rfl, rfl⟩

/-- So many digits write no number beyond what there is room for. -/
theorem Text.valueAfter_lt {base : Nat} (value : Nat) {digits : List Char}
    (hdigits : ∀ c ∈ digits, digitValue c < base) :
    valueAfter base value digits < (value + 1) * base ^ digits.length := by
  induction digits generalizing value with
  | nil => simp
  | cons c digits ih =>
      have hc : digitValue c < base := hdigits c List.mem_cons_self
      have htail := ih (value * base + digitValue c)
        fun d hd ↦ hdigits d (List.mem_cons_of_mem c hd)
      have hstep : value * base + digitValue c + 1 ≤ (value + 1) * base := by
        rw [Nat.add_mul, Nat.one_mul]
        omega
      rw [valueAfter_cons, List.length_cons, Nat.pow_succ', ← Nat.mul_assoc]
      exact Nat.lt_of_lt_of_le htail (Nat.mul_le_mul_right _ hstep)

theorem digitValue_lt_two {c : Char} (h : isBinaryDigit c = true) : digitValue c < 2 := by
  simp only [isBinaryDigit, Bool.or_eq_true, beq_iff_eq] at h
  rcases h with rfl | rfl <;> decide

theorem digitsValue_binary_le {digits : List Char} (h : ∀ c ∈ digits, isBinaryDigit c = true)
    (hle : digits.length ≤ maxBinaryDigits) : digitsValue 2 digits ≤ unsignedMax := by
  have hlt := @valueAfter_lt 2 0 digits fun c hc ↦ digitValue_lt_two (h c hc)
  have hpow : 2 ^ digits.length ≤ 2 ^ maxBinaryDigits := Nat.pow_le_pow_right (by decide) hle
  have hmax : 2 ^ maxBinaryDigits = unsignedMax + 1 := rfl
  rw [digitsValue]
  omega

theorem Register.ordinal_le (r : Register) : r.ordinal ≤ 15 := by
  cases r with
  | general index =>
      rw [ordinal]
      omega
  | _ => decide

theorem Register.exists_ordinal_eq : ∀ n ≤ 15, ∃ r ∈ Register.all, r.ordinal = n := by
  decide

theorem Register.nameOfOrdinal_ordinal (r : Register) :
    nameOfOrdinal ((r.ordinal : Int) : Handle) = .ok r.name := by
  rw [Rat.intCast_natCast, nameOfOrdinal, ofOrdinal?_ordinal]

/-- In its bounds an ordinal is that of a register, and is shown by the name of this register. -/
theorem Register.exists_name_eq {ordinal : Int} (hnonneg : 0 ≤ ordinal) (hle : ordinal ≤ 15) :
    ∃ r : Register, ordinal = r.ordinal ∧ nameOfOrdinal ordinal = .ok r.name := by
  obtain ⟨r, -, hr⟩ := exists_ordinal_eq ordinal.toNat (by omega)
  obtain rfl : ordinal = r.ordinal := by omega
  exact ⟨r, rfl, r.nameOfOrdinal_ordinal⟩

theorem InstructionTable.mem_of_opcode?_eq_some {table : InstructionTable} {mnemonic : String}
    {code : Nat} (h : table.opcode? mnemonic = some code) : (mnemonic, code) ∈ table.entries :=
  mem_of_lookup_eq_some h

/-- Where no mnemonic stands twice, each has the opcode of its entry. -/
theorem InstructionTable.opcode?_eq_some_iff {table : InstructionTable}
    (htable : (table.entries.map Prod.fst).Nodup) {mnemonic : String} {code : Nat} :
    table.opcode? mnemonic = some code ↔ (mnemonic, code) ∈ table.entries := by
  refine ⟨mem_of_opcode?_eq_some, ?_⟩
  intro hmem
  obtain ⟨front, rear, hentries⟩ := List.append_of_mem hmem
  rw [hentries, List.map_append, List.map_cons, List.nodup_middle, List.nodup_cons] at htable
  refine List.lookup_eq_some_iff.mpr ⟨front, rear, hentries, ?_⟩
  intro entry hentry
  have hne : mnemonic ≠ entry.1 := by
    intro heq
    rw [heq] at htable
    exact htable.1 (List.mem_append_left _ (List.mem_map.mpr ⟨entry, hentry, rfl⟩))
  simpa using hne

/-- Where no opcode is given twice, each has the mnemonic of its entry. -/
theorem InstructionTable.mnemonic?_eq_some_iff {table : InstructionTable}
    (htable : (table.entries.map Prod.snd).Nodup) {q : Rat} {mnemonic : String} :
    table.mnemonic? q = some mnemonic ↔
      ∃ code : Nat, q = code ∧ (mnemonic, code) ∈ table.entries := by
  rw [mnemonic?, Option.bind_eq_some_iff]
  constructor
  · rintro ⟨code, hcode, hfound⟩
    obtain ⟨entry, hfind, rfl⟩ := Option.map_eq_some_iff.mp hfound
    have heq : entry.2 = code := by simpa using List.find?_some hfind
    subst heq
    exact ⟨entry.2, Number.natural?_eq_some_iff_eq.mp hcode, List.mem_of_find?_eq_some hfind⟩
  · rintro ⟨code, rfl, hmem⟩
    refine ⟨code, rfl, ?_⟩
    cases hfound : table.entries.find? fun entry ↦ entry.2 = code with
    | none => simpa using List.find?_eq_none.mp hfound _ hmem
    | some entry =>
        have hcode : entry.2 = code := by simpa using List.find?_some hfound
        rw [List.inj_on_of_nodup_map htable (List.mem_of_find?_eq_some hfound) hmem hcode,
          Option.map_some]

namespace Token

/-- The number in a token, if it has one, is one that can be written in a source. -/
inductive Body.Sound (table : InstructionTable) : Body → Prop
  | comma : Sound table .comma
  | colon : Sound table .colon
  | directive (d : Directive) : Sound table (.directive d)
  | identifier : Sound table .identifier
  | register {ordinal : Int} (hnonneg : 0 ≤ ordinal) (hle : ordinal ≤ 15) :
      Sound table (.register ordinal)
  | opcode {mnemonic : String} {code : Nat} (hmem : (mnemonic, code) ∈ table.entries) :
      Sound table (.opcode code)
  | unsigned {value : Int} (hnonneg : 0 ≤ value) (hle : value ≤ 2 ^ 64 - 1) :
      Sound table (.unsigned value)
  | signed {value : Int} (hge : -(2 ^ 63 - 1) ≤ value) (hle : value ≤ 2 ^ 63 - 1) :
      Sound table (.signed value)

namespace Body.Sound

variable {table : InstructionTable}

theorem wordBody (table : InstructionTable) (word : List Char) :
    Sound table (Name.wordBody table word) := by
  rw [Name.wordBody, InstructionTable.meaning]
  split
  · exact .identifier
  · split
    · rename_i code hcode
      exact .opcode (InstructionTable.mem_of_opcode?_eq_some hcode)
    · exact .identifier

theorem of_le_unsignedMax {value : Nat} (h : value ≤ unsignedMax) :
    Sound table (.unsigned value) := by
  have hmax : (unsignedMax : Int) = 2 ^ 64 - 1 := rfl
  exact .unsigned (by omega) (by omega)

theorem of_le_signedMax {magnitude : Nat} (negative : Bool) (h : magnitude ≤ signedMax) :
    Sound table (.signed (signedValue negative magnitude)) := by
  have hmax : (signedMax : Int) = 2 ^ 63 - 1 := rfl
  rw [signedValue]
  split
  · exact .signed (by omega) (by omega)
  · exact .signed (by omega) (by omega)

theorem of_segment {mode : NumericMode} {lead word rest : List Char} {body : Body}
    (h : Segment (Name.wordBody table) mode lead word rest (some body)) : Sound table body := by
  cases h with
  | comma => exact .comma
  | colon => exact .colon
  | @directive _ _ d => exact .directive d
  | word => exact wordBody table word
  | @general digit _ hdigit =>
      have hordinal := Register.ordinal_ofDigit hdigit
      have hle := Register.ordinal_le (Register.ofDigit digit)
      exact .register (by omega) (by omega)
  | @named _ _ r =>
      have hle := r.ordinal_le
      exact .register (by omega) (by omega)
  | hex _ _ hle => exact of_le_unsignedMax hle
  | binary hrun _ hle => exact of_le_unsignedMax (digitsValue_binary_le hrun.all hle)
  | unsigned _ hnumber => exact of_le_unsignedMax hnumber.le
  | signed negative _ hnumber => exact of_le_signedMax negative hnumber.le

end Body.Sound

def Kind.numbered : List Kind :=
  [.register, .opcode, .unsigned, .signed]

/-- A token shows what it stands for if it is of a kind that stands for a number. -/
theorem exists_payload {table : InstructionTable} {t : Token} (h : t.body.Sound table) :
    ∃ shown, t.payload table = .ok shown ∧ (shown.isSome = true ↔ t.kind ∈ Kind.numbered) := by
  obtain ⟨body, range⟩ := t
  cases h with
  | register hnonneg hle =>
      obtain ⟨r, -, hname⟩ := Register.exists_name_eq hnonneg hle
      refine ⟨some ("$" ++ r.name), ?_, ?_⟩
      · simp only [payload, hname]
        rfl
      · simp [kind, Body.kind, Kind.numbered]
  | _ => exact ⟨_, rfl, by simp [kind, Body.kind, Kind.numbered]⟩

end Token

end AsmLexer
