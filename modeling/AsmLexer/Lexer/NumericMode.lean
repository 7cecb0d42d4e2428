/-!
# Numeric modes

The mode says how a literal without a mark of its own is read.
-/

namespace AsmLexer

inductive NumericMode
  | unsigned
  | signed
  | float
deriving DecidableEq

namespace NumericMode

def name : NumericMode → String
  | .unsigned => "unsigned"
  | .signed => "signed"
  | .float => "float"

def all : List NumericMode :=
  [.unsigned, .signed, .float]

def ofName? (name : String) : Option NumericMode :=
  all.find? fun m ↦ m.name = name

end NumericMode

end AsmLexer
