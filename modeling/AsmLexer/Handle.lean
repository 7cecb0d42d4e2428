import AsmLexer.Number.Text

/-!
# Handles

Files, tokens and registers are named by numbers. A caller may hand in any number, so a handle is a
rational and only a natural number can name something; every other one is refused by the lookup
with the number in the message.
-/

namespace AsmLexer

/-- A number that may name a file, a token or a register. -/
abbrev Handle := Rat

/-- A lookup by a number that names nothing. -/
inductive LookupFault
  | file (id : Handle)
  | token (id : Handle)
  | register (ordinal : Handle)
deriving DecidableEq

namespace LookupFault

def message : LookupFault → String
  | .file id => "Invalid FileId: " ++ Number.text id
  | .token id => "Invalid TokenId: " ++ Number.text id
  | .register ordinal => "Invalid register: " ++ Number.text ordinal

end LookupFault

namespace Handle

/-- The element of an array that a handle names: the one at that index, if it is an index. -/
def find? {α : Type} (id : Handle) (xs : Array α) : Option α :=
  (Number.natural? id).bind fun i ↦ xs[i]?

@[simp] theorem find?_natCast {α : Type} (i : Nat) (xs : Array α) :
    find? (i : Handle) xs = xs[i]? := by
  simp [find?, Number.natural?]

end Handle

/-- Any number of double precision in the place of a handle: besides the finite ones there are the
two infinities and the value that is no number. -/
inductive AnyHandle
  | finite (id : Handle)
  | infinite (negative : Bool)
  | nan
deriving DecidableEq

namespace AnyHandle

def text : AnyHandle → String
  | .finite id => Number.text id
  | .infinite negative => if negative then "-Infinity" else "Infinity"
  | .nan => "NaN"

def isInt : AnyHandle → Bool
  | .finite id => id.isInt
  | _ => false

/-- Whether the number is `bound` or more; what is no number compares with nothing. -/
def atLeast (id : AnyHandle) (bound : Handle) : Bool :=
  match id with
  | .finite id => bound ≤ id
  | .infinite negative => !negative
  | .nan => false

def below (id : AnyHandle) (bound : Handle) : Bool :=
  match id with
  | .finite id => id < bound
  | .infinite negative => negative
  | .nan => false

/-- A lookup by any number. One that is not finite is no index, and the refusal ends with it. -/
def lookup {α : Type} (refusal : String) (find : Handle → Except LookupFault α) :
    AnyHandle → Except String α
  | .finite id => (find id).mapError LookupFault.message
  | id => .error (refusal ++ id.text)

end AnyHandle

end AsmLexer
