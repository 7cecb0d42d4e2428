import AsmLexer.Value.Fields

/-!
# Instruction tables

A table gives each mnemonic an opcode. It is built from a record whose fields are checked in their
order of enumeration: a mnemonic is a nonempty word of the letters `a` to `z`, an opcode is a whole
number that fits in a byte, and no opcode is given twice. The first fault found is reported, and
within one field the mnemonic is looked at before the opcode and the opcode before its repetition.
-/

namespace AsmLexer

/-- Mnemonics with their opcodes, in the order of the table. -/
structure InstructionTable where
  entries : List (String × Nat) := []
deriving DecidableEq

namespace InstructionTable

inductive Fault
  | notRecord
  | mnemonic (name : String)
  | opcode (name : String) (value : Value)
  | duplicate (name : String) (opcode : Nat)

/-- What is thrown for a fault. The text of a value is asked for on the way to the message, so what
is thrown there comes first. -/
def Fault.thrown : Fault → Thrown
  | .notRecord => .error "Instruction table must be an object of mnemonic to opcode"
  | .mnemonic name =>
      .error ("Invalid mnemonic \"" ++ name ++ "\": only lowercase letters are allowed")
  | .opcode name value =>
      match value.shown with
      | .ok text => .error ("Invalid opcode for \"" ++ name ++ "\": " ++ text)
      | .error thrown => thrown
  | .duplicate name byte =>
      .error ("Duplicate opcode " ++ toString byte ++ " for \"" ++ name ++ "\"")

def opcode? (table : InstructionTable) (mnemonic : String) : Option Nat :=
  table.entries.lookup mnemonic

def mnemonic? (table : InstructionTable) (opcode : Rat) : Option String :=
  (Number.natural? opcode).bind fun n ↦
    (table.entries.find? fun entry ↦ entry.2 = n).map (·.1)

def count (table : InstructionTable) : Nat :=
  table.entries.length

/-- A nonempty word of the letters `a` to `z`. -/
def IsMnemonic (word : String) : Prop :=
  word.toList ≠ [] ∧ ∀ c ∈ word.toList, c.isLower = true

instance (word : String) : Decidable (IsMnemonic word) :=
  haveI := List.decidableBAll (fun c : Char ↦ c.isLower = true) word.toList
  inferInstanceAs (Decidable (_ ∧ _))

/-- The opcode that a value is: a whole number from 0 to 255. -/
def byte? : Value → Option Nat
  | .number q => (Number.natural? q).filter (· ≤ 255)
  | _ => none

/-- Check one field against the entries before it and add it to them. -/
def addField (table : InstructionTable) (field : String × Value) :
    Except Fault InstructionTable :=
  if IsMnemonic field.1 then
    match byte? field.2 with
    | none => .error (.opcode field.1 field.2)
    | some opcode =>
        if opcode ∈ table.entries.map (·.2) then .error (.duplicate field.1 opcode)
        else .ok ⟨table.entries ++ [(field.1, opcode)]⟩
  else .error (.mnemonic field.1)

/-- Add fields in turn, up to the first fault. -/
def addFields (table : InstructionTable) : List (String × Value) → Except Fault InstructionTable
  | [] => .ok table
  | field :: rest =>
      match addField table field with
      | .ok extended => addFields extended rest
      | .error fault => .error fault

def build : Value → Except Fault InstructionTable
  | .record fields => addFields {} (Value.enumerate fields)
  | _ => .error .notRecord

/-- The table that a value is, or what is thrown for the first fault. -/
def ofValue (value : Value) : Except Thrown InstructionTable :=
  (build value).mapError Fault.thrown

end InstructionTable

end AsmLexer
