import AsmLexer.Lexer.Step
import AsmLexer.Machine.Instruction
import AsmLexer.Source.Files
import AsmLexer.Token.Store

/-!
# Running the lexer

A lexer holds the text that is still to be read, the position where it stands and the tokens found
so far. A run goes on to the end of the text or to the first error; a further run goes on from
there. `tokenize` is one run over a whole text, which keeps the tokens only if all of it was read.
-/

namespace AsmLexer

inductive Outcome
  | finished
  | failed (error : LexError)
  | unsupported (cause : Unsupported)
deriving DecidableEq

structure Lexer where
  table : InstructionTable
  mode : NumericMode
  file : Handle
  rest : List Char
  position : Position := .origin
  store : TokenStore := {}

namespace Lexer

def start (table : InstructionTable) (mode : NumericMode) (file : Handle) (text : List Char) :
    Lexer :=
  { table, mode, file, rest := text }

/-- The state after a reading: past what was read, with the token that was found. -/
def after (l : Lexer) : Reading → Lexer
  | .lineFeed => { l with rest := l.rest.drop 1, position := l.position.nextLine }
  | .token body lead length =>
      let start := l.position.right lead
      let range := ⟨start, start.right length, l.file⟩
      { l with
        rest := l.rest.drop (lead + length)
        position := start.right length
        store := l.store.push ⟨body, range⟩ }
  | reading =>
      { l with
        rest := l.rest.drop reading.consumed
        position := l.position.right reading.consumed }

/-- The outcome of a run that stops at a reading. -/
def outcome? (l : Lexer) : Reading → Option Outcome
  | .unexpected c => some (.failed (.unexpected (String.singleton c) l.position))
  | .atPoint fault lead _ => some (.failed (.atPoint fault (l.position.right lead)))
  | .over fault lead length =>
      let start := l.position.right lead
      some (.failed (.over fault ⟨start, start.right length, l.file⟩))
  | .float lead => some (.unsupported (.floatLiteral (l.position.right lead)))
  | _ => none

theorem rest_after (l : Lexer) (r : Reading) : (l.after r).rest = l.rest.drop r.consumed := by
  cases r <;> rfl

theorem outcome?_eq_none_iff (l : Lexer) (r : Reading) :
    l.outcome? r = none ↔ r.continues = true := by
  cases r <;> simp [outcome?, Reading.continues]

theorem length_rest_after_lt {l : Lexer} {c : Char} {cs : List Char} (hrest : l.rest = c :: cs)
    (h : l.outcome? (Reading.next l.table l.mode c cs) = none) :
    (l.after (Reading.next l.table l.mode c cs)).rest.length < l.rest.length := by
  have hpos := Reading.advances_next l.table l.mode c cs ((outcome?_eq_none_iff _ _).1 h)
  rw [rest_after, List.length_drop, hrest, List.length_cons]
  omega

def run (l : Lexer) : Outcome × Lexer :=
  match _ : l.rest with
  | [] => (.finished, l)
  | c :: cs =>
      match _ : l.outcome? (Reading.next l.table l.mode c cs) with
      | some outcome => (outcome, l.after (Reading.next l.table l.mode c cs))
      | none => run (l.after (Reading.next l.table l.mode c cs))
termination_by l.rest.length
decreasing_by exact length_rest_after_lt ‹_› ‹_›

theorem run_of_rest_eq_nil {l : Lexer} (hrest : l.rest = []) : l.run = (.finished, l) := by
  rw [run]
  split
  · rfl
  · simp_all

theorem run_of_outcome?_eq_some {l : Lexer} {c : Char} {cs : List Char} {outcome : Outcome}
    (hrest : l.rest = c :: cs)
    (hstop : l.outcome? (Reading.next l.table l.mode c cs) = some outcome) :
    l.run = (outcome, l.after (Reading.next l.table l.mode c cs)) := by
  rw [run]
  split
  · simp_all
  · rename_i d ds hrest'
    obtain ⟨rfl, rfl⟩ : d = c ∧ ds = cs := by simpa [hrest'] using hrest
    split <;> simp_all

theorem run_of_outcome?_eq_none {l : Lexer} {c : Char} {cs : List Char} (hrest : l.rest = c :: cs)
    (hstop : l.outcome? (Reading.next l.table l.mode c cs) = none) :
    l.run = (l.after (Reading.next l.table l.mode c cs)).run := by
  rw [run]
  split
  · simp_all
  · rename_i d ds hrest'
    obtain ⟨rfl, rfl⟩ : d = c ∧ ds = cs := by simpa [hrest'] using hrest
    split <;> simp_all

def isFinished (l : Lexer) : Bool :=
  l.rest.isEmpty

end Lexer

inductive Tokenized
  | tokens (list : List Token)
  | error (e : LexError)
  | unsupported (cause : Unsupported)
deriving DecidableEq

/-- The tokens of a text, if it has no error. -/
def tokenize (table : InstructionTable) (mode : NumericMode) (file : Handle) (text : List Char) :
    Tokenized :=
  match (Lexer.start table mode file text).run with
  | (.finished, l) => .tokens l.store.toList
  | (.failed e, _) => .error e
  | (.unsupported cause, _) => .unsupported cause

def Files.tokenize (files : Files) (id : Handle) (mode : NumericMode) :
    Except LookupFault Tokenized :=
  (files.get id).map fun f ↦ AsmLexer.tokenize .standard mode id f.chars

end AsmLexer
