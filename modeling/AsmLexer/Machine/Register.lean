import AsmLexer.Handle

/-!
# Registers

The machine has six registers with names of their own and ten general ones. Ordinals count the
named registers first. In the source a name is written after `$r`, either as the two letters of a
named register or as the digit of a general one.
-/

namespace AsmLexer

inductive Register
  | sp
  | fp
  | ou
  | fl
  | ra
  | rb
  | general (index : Fin 10)
deriving DecidableEq

namespace Register

/-- All registers, in the order of their ordinals. -/
def all : List Register :=
  [.sp, .fp, .ou, .fl, .ra, .rb] ++ (List.finRange 10).map .general

def ordinal : Register → Nat
  | .sp => 0
  | .fp => 1
  | .ou => 2
  | .fl => 3
  | .ra => 4
  | .rb => 5
  | .general index => 6 + index

/-- The name that follows the `$`. -/
def name : Register → String
  | .sp => "rsp"
  | .fp => "rfp"
  | .ou => "rou"
  | .fl => "rfl"
  | .ra => "rra"
  | .rb => "rrb"
  | .general index => "r" ++ toString index.val

/-- The name with a capital, as in a listing of the registers. -/
def title (r : Register) : String :=
  r.name.capitalize

/-- The named registers by the two letters after `$r`, grouped by the first letter. -/
def byLetters : List (Char × List (Char × Register)) :=
  [('f', [('p', .fp), ('l', .fl)]),
   ('s', [('p', .sp)]),
   ('o', [('u', .ou)]),
   ('r', [('a', .ra), ('b', .rb)])]

/-- The named registers whose first letter is `first`, if there are any. -/
def group? (first : Char) : Option (List (Char × Register)) :=
  byLetters.lookup first

def named? (first second : Char) : Option Register :=
  (group? first).bind (·.lookup second)

/-- The general register of this number. -/
def positional? (index : Handle) : Option Register :=
  (Number.natural? index).bind fun i ↦ if h : i < 10 then some (.general ⟨i, h⟩) else none

/-- The general register of a decimal digit. -/
def ofDigit (digit : Char) : Register :=
  .general (Fin.ofNat 10 (digit.toNat - '0'.toNat))

def ofOrdinal? (ordinal : Handle) : Option Register :=
  (Number.natural? ordinal).bind fun i ↦ all[i]?

def nameOfOrdinal (ordinal : Handle) : Except LookupFault String :=
  match ofOrdinal? ordinal with
  | some r => .ok r.name
  | none => .error (.register ordinal)

theorem getElem?_all_ordinal (r : Register) : all[r.ordinal]? = some r := by
  cases r with
  | general index =>
      revert index
      decide
  | _ => rfl

theorem ofOrdinal?_ordinal (r : Register) : ofOrdinal? (r.ordinal : Handle) = some r := by
  simp [ofOrdinal?, Number.natural?, getElem?_all_ordinal]

end Register

end AsmLexer
