import AsmLexer.Text.Slice
import AsmLexer.Token.Basic

/-!
# Token stores

Tokens are added at the end and named by how many were there before.
-/

namespace AsmLexer

structure TokenStore where
  tokens : Array Token := #[]

namespace TokenStore

def count (s : TokenStore) : Nat :=
  s.tokens.size

def push (s : TokenStore) (t : Token) : TokenStore :=
  ⟨s.tokens.push t⟩

/-- Add a token and give its handle. -/
def add (s : TokenStore) (t : Token) : TokenStore × Nat :=
  (s.push t, s.count)

def get (s : TokenStore) (id : Handle) : Except LookupFault Token :=
  match Handle.find? id s.tokens with
  | some t => .ok t
  | none => .error (.token id)

/-- Whether a handle lies between zero and the number of tokens. -/
def isValid (s : TokenStore) (id : Handle) : Bool :=
  0 ≤ id && id < s.count

def getAny (s : TokenStore) : AnyHandle → Except String Token :=
  AnyHandle.lookup "Invalid TokenId: " s.get

def isValidAny (s : TokenStore) (id : AnyHandle) : Bool :=
  id.atLeast 0 && id.below s.count

/-- The tokens between two handles; a fraction of a handle does not count. -/
def slice (s : TokenStore) (start stop : Handle) : List Token :=
  Text.slice s.tokens.toList (Number.truncate start) (Number.truncate stop)

def toList (s : TokenStore) : List Token :=
  s.tokens.toList

def enumerate (s : TokenStore) : List (Nat × Token) :=
  s.toList.zipIdx.map fun (t, i) ↦ (i, t)

@[simp] theorem isValidAny_finite (s : TokenStore) (id : Handle) :
    s.isValidAny (.finite id) = s.isValid id := rfl

@[simp] theorem toList_push (s : TokenStore) (t : Token) : (s.push t).toList = s.toList ++ [t] := by
  simp [push, toList]

@[simp] theorem length_toList (s : TokenStore) : s.toList.length = s.count := by
  simp [toList, count]

end TokenStore

end AsmLexer
