import AsmLexer.Proofs.Errors

/-!
# The same text in another place

What is found in a text does not depend on where the text stands. Only the positions do, and they
move as the places of the text do. A lexer that is moved makes the same readings, so a run of it can
be followed reading by reading.
-/

namespace AsmLexer

open Grammar Position

/-! ## Moving positions -/

def Range.moved (f : Position → Position) (r : Range) : Range :=
  ⟨f r.start, f r.stop, r.file⟩

def Token.moved (f : Position → Position) (t : Token) : Token :=
  ⟨t.body, t.range.moved f⟩

def LexError.moved (f : Position → Position) : LexError → LexError
  | .unexpected what position => .unexpected what (f position)
  | .atPoint fault position => .atPoint fault (f position)
  | .over fault range => .over fault (range.moved f)

def Unsupported.moved (f : Position → Position) (u : Unsupported) : Unsupported :=
  ⟨u.feature, f u.position⟩

def Outcome.moved (f : Position → Position) : Outcome → Outcome
  | .finished => .finished
  | .failed e => .failed (e.moved f)
  | .unsupported cause => .unsupported (cause.moved f)

/-- The lexer with its positions moved, in front of `rest`, with the tokens `front` before its
own. -/
def Lexer.moved (f : Position → Position) (front : List Token) (rest : List Char) (l : Lexer) :
    Lexer :=
  { l with
    rest
    position := f l.position
    store := ⟨front.toArray ++ l.store.tokens.map (Token.moved f)⟩ }

/-- The places reached from `p` go over into those reached from `q`. -/
def Position.Moves (f : Position → Position) (p q : Position) : Prop :=
  ∀ chars, f (p.past chars) = q.past chars

/-- Steps within a line stay steps within a line. -/
def Position.KeepsLines (f : Position → Position) : Prop :=
  ∀ p count, f (p.right count) = (f p).right count

variable {f : Position → Position} {p q : Position}

theorem Position.Moves.apply_eq (h : Moves f p q) : f p = q :=
  h []

theorem Position.Moves.past (h : Moves f p q) (front : List Char) :
    Moves f (p.past front) (q.past front) := by
  intro chars
  rw [← past_append, ← past_append]
  exact h (front ++ chars)

/-! ## Moving what is found -/

variable {words : List Char → Token.Body} {mode : NumericMode} {file : Handle}
  {text rear lead word : List Char} {found : Option Token.Body}

theorem segmentTokens_moved (h : Moves f p q) :
    (segmentTokens file p lead word found).map (Token.moved f) =
      segmentTokens file q lead word found := by
  cases found with
  | none => rfl
  | some body => simp [segmentTokens, Token.moved, Range.moved, h lead, h (lead ++ word)]

theorem Cut.moved {pieces : List (List Char)} {tokens : List Token} (hmoves : Moves f p q)
    (h : Cut words mode file p text pieces tokens rear) :
    Cut words mode file q text pieces (tokens.map (Token.moved f)) rear := by
  induction h generalizing q with
  | nil => exact .nil ..
  | @cons p lead word rest rear found pieces tokens hhead _ ih =>
      have htail := ih (hmoves.past (lead ++ word))
      rw [List.map_append, segmentTokens_moved hmoves]
      exact .cons hhead htail

theorem ErrorAt.moved {e : LexError} (hmoves : Moves f p q) (h : ErrorAt mode file p rear e) :
    ErrorAt mode file q rear (e.moved f) := by
  cases h with
  | unexpected rest h =>
      rw [LexError.moved, hmoves.apply_eq]
      exact .unexpected rest h
  | @missing fault lead _ _ h =>
      rw [LexError.moved, hmoves lead]
      exact .missing h
  | @fault fault lead span _ h =>
      rw [LexError.moved, Range.moved, hmoves lead, hmoves (lead ++ span)]
      exact .fault h

/-! ## Moving a lexer -/

namespace Lexer

variable (l : Lexer) (front : List Token) (rest : List Char)

@[simp] theorem toList_store_moved :
    (l.moved f front rest).store.toList = front ++ l.store.toList.map (Token.moved f) := by
  simp [Lexer.moved, TokenStore.toList]

theorem outcome?_moved (hf : KeepsLines f) (r : Reading) :
    (l.moved f front rest).outcome? r = (l.outcome? r).map (Outcome.moved f) := by
  have hright : ∀ p count, (f p).right count = f (p.right count) := fun p count ↦ (hf p count).symm
  cases r <;> simp [outcome?, Lexer.moved, Outcome.moved, LexError.moved, Range.moved,
    Unsupported.moved, Unsupported.floatLiteral, hright]

/-- A reading within a line does the same to the lexer wherever it stands. -/
theorem after_moved (hf : KeepsLines f) {r : Reading} (hr : r ≠ .lineFeed) :
    (l.moved f front rest).after r = (l.after r).moved f front (rest.drop r.consumed) := by
  have hright : ∀ p count, (f p).right count = f (p.right count) := fun p count ↦ (hf p count).symm
  cases r with
  | lineFeed => exact absurd rfl hr
  | token body lead length =>
      simp [after, Lexer.moved, Token.moved, Range.moved, TokenStore.push, Reading.consumed, hright]
  | _ => simp [after, Lexer.moved, hright]

theorem after_lineFeed_moved (hline : f l.position.nextLine = (f l.position).nextLine) :
    (l.moved f front rest).after .lineFeed =
      (l.after .lineFeed).moved f front (rest.drop 1) := by
  simp [after, Lexer.moved, hline]

end Lexer

end AsmLexer
