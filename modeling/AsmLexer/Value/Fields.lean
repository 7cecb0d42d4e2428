import AsmLexer.Text.Digits
import AsmLexer.Value

/-!
# The fields of a record in order

A record is written as a list of fields, in which a name may return. Its fields are enumerated with
each name once: a name keeps its first place and takes its last value. Names that are array indices
come first, in ascending order, and the others follow in the order in which they first appeared.
-/

namespace AsmLexer.Value

/-- Set a field: in its place if the name is there, else at the end. -/
def setField (name : String) (value : Value) : List (String × Value) → List (String × Value)
  | [] => [(name, value)]
  | (other, old) :: rest =>
      if other = name then (name, value) :: rest else (other, old) :: setField name value rest

/-- The number that a name is as an array index: decimal without leading zeros, below 2³² - 1. -/
def arrayIndex? (name : String) : Option Nat :=
  let index := Text.digitsValue 10 name.toList
  if name.toList.all Char.isDigit ∧ toString index = name ∧ index < 4294967295 then some index
  else none

/-- The fields of a record in their order of enumeration. -/
def enumerate (fields : List (String × Value)) : List (String × Value) :=
  let distinct := fields.foldl (fun done field ↦ setField field.1 field.2 done) []
  let indexed := distinct.filterMap fun field ↦ (arrayIndex? field.1).map (·, field)
  let named := distinct.filter fun field ↦ (arrayIndex? field.1).isNone
  (indexed.mergeSort fun a b ↦ a.1 ≤ b.1).map (·.2) ++ named

end AsmLexer.Value
