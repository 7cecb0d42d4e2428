/-!
# Directives

The words that may follow a `%`.
-/

namespace AsmLexer

inductive Directive
  | repeatStart
  | repeatEnd
  | ifStart
  | elseBranch
  | ifEnd
  | importFile
  | constant
deriving DecidableEq

namespace Directive

def all : List Directive :=
  [.repeatStart, .repeatEnd, .ifStart, .elseBranch, .ifEnd, .importFile, .constant]

def spelling : Directive → String
  | .repeatStart => "repeat"
  | .repeatEnd => "end_repeat"
  | .ifStart => "if"
  | .elseBranch => "else"
  | .ifEnd => "endif"
  | .importFile => "import"
  | .constant => "const"

/-- The directive with this spelling; case counts. -/
def ofSpelling? (word : String) : Option Directive :=
  all.find? fun d ↦ d.spelling = word

theorem mem_all (d : Directive) : d ∈ all := by
  cases d <;> decide

theorem spelling_of_ofSpelling? {word : String} {d : Directive} (h : ofSpelling? word = some d) :
    d.spelling = word := by
  simpa using List.find?_some h

end Directive

end AsmLexer
