/-!
# Digits

The digits of the literal notations and the number that a run of them stands for. A hexadecimal
digit means the same in either case.
-/

namespace AsmLexer.Text

def isBinaryDigit (c : Char) : Bool :=
  c == '0' || c == '1'

def isHexDigit (c : Char) : Bool :=
  c.isDigit || ('a' ≤ c && c ≤ 'f') || ('A' ≤ c && c ≤ 'F')

/-- The value of a digit of base at most sixteen. -/
def digitValue (c : Char) : Nat :=
  if c.isDigit then c.toNat - '0'.toNat
  else if 'a' ≤ c then c.toNat - 'a'.toNat + 10
  else c.toNat - 'A'.toNat + 10

/-- The value of `digits` read after digits of the value `value`. -/
def valueAfter (base value : Nat) (digits : List Char) : Nat :=
  digits.foldl (fun v c ↦ v * base + digitValue c) value

/-- The number written by `digits` in `base`. -/
def digitsValue (base : Nat) (digits : List Char) : Nat :=
  valueAfter base 0 digits

@[simp] theorem valueAfter_nil (base value : Nat) : valueAfter base value [] = value := rfl

@[simp] theorem valueAfter_cons (base value : Nat) (c : Char) (digits : List Char) :
    valueAfter base value (c :: digits) =
      valueAfter base (value * base + digitValue c) digits := rfl

theorem valueAfter_append (base value : Nat) (front rear : List Char) :
    valueAfter base value (front ++ rear) = valueAfter base (valueAfter base value front) rear :=
  List.foldl_append

/-- Reading on never makes the value smaller. -/
theorem le_valueAfter {base : Nat} (hbase : 0 < base) (value : Nat) (digits : List Char) :
    value ≤ valueAfter base value digits := by
  induction digits generalizing value with
  | nil => simp
  | cons c digits ih =>
      have hmul : value ≤ value * base := Nat.le_mul_of_pos_right value hbase
      exact Nat.le_trans (Nat.le_trans hmul (Nat.le_add_right _ _)) (ih _)

end AsmLexer.Text
