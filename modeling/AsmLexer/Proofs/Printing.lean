import AsmLexer.Proofs.Lexeme
import AsmLexer.Proofs.Results
import AsmLexer.Proofs.Splitting
import Mathlib.Data.List.Forall2

/-!
# Printed programs

A program is printed by writing its lexemes in turn, each with a separator behind it. No reader
takes in a part of a separator, so the lexer finds the lexemes again, one token for each.
-/

namespace AsmLexer

open Text Grammar Position

inductive Gap
  | blank (c : Char) (hspace : Unicode.isWhiteSpace c = true)
  | comment (body : List Char) (hline : '\n' ∉ body)

def Gap.text : Gap → List Char
  | .blank c _ => [c]
  | .comment body _ => '#' :: body ++ ['\n']

structure Separator where
  gaps : List Gap
  ne_nil : gaps ≠ []

def Separator.text (s : Separator) : List Char :=
  s.gaps.flatMap Gap.text

abbrev Program := List (Lexeme × Separator)

def Program.text (program : Program) : List Char :=
  program.flatMap fun item ↦ item.1.text ++ item.2.text

theorem Program.text_cons (l : Lexeme) (s : Separator) (program : Program) :
    Program.text ((l, s) :: program) = l.text ++ (s.text ++ program.text) := by
  rw [text, List.flatMap_cons, List.append_assoc]
  rfl

/-! ## What stands behind a lexeme -/

theorem Gap.noneAhead (g : Gap) (rest : List Char) : NoneAhead goesOn (g.text ++ rest) := by
  cases g with
  | blank c hspace => exact noneAhead_cons.mpr (goesOn_eq_false_of_isWhiteSpace hspace)
  | comment => exact noneAhead_cons.mpr (by decide)

theorem Separator.noneAhead (s : Separator) (rest : List Char) :
    NoneAhead goesOn (s.text ++ rest) := by
  obtain ⟨g, gaps, hgaps⟩ := List.exists_cons_of_ne_nil s.ne_nil
  rw [text, hgaps, List.flatMap_cons, List.append_assoc]
  exact g.noneAhead _

/-! ## Cutting what is printed -/

section

variable {words : List Char → Token.Body} {mode : NumericMode} {file : Handle} {p : Position}
  {rest rear : List Char} {pieces : List (List Char)} {tokens : List Token}

theorem Gap.cut (g : Gap) (hcut : Cut words mode file (p.past g.text) rest pieces tokens rear) :
    ∃ more, Cut words mode file p (g.text ++ rest) more tokens rear := by
  cases g with
  | blank c hspace =>
      by_cases hline : c = '\n'
      · subst hline
        exact ⟨_, .cons (.lineFeed rest) hcut⟩
      · exact ⟨_, .cons (.blank rest hspace hline) hcut⟩
  | comment body hline =>
      have hrun : MaximalRun (· ≠ '\n') body ('\n' :: rest) := by
        refine ⟨?_, noneAhead_cons.mpr (by decide)⟩
        intro c hc
        simpa using ne_of_mem_of_not_mem hc hline
      rw [text, past_append, ← List.append_nil ('#' :: body)] at hcut
      have hbreak : Cut words mode file (p.past ('#' :: body ++ [])) ('\n' :: rest) _ tokens rear :=
        .cons (.lineFeed rest) hcut
      rw [text, List.append_assoc, ← List.append_nil ('#' :: body)]
      exact ⟨_, .cons (.comment hrun) hbreak⟩

theorem Separator.cut_gaps (gaps : List Gap)
    (hcut : Cut words mode file (p.past (gaps.flatMap Gap.text)) rest pieces tokens rear) :
    ∃ more, Cut words mode file p (gaps.flatMap Gap.text ++ rest) more tokens rear := by
  induction gaps generalizing p with
  | nil => exact ⟨pieces, hcut⟩
  | cons g gaps ih =>
      rw [List.flatMap_cons, past_append] at hcut
      obtain ⟨more, hmore⟩ := ih hcut
      rw [List.flatMap_cons, List.append_assoc]
      exact g.cut hmore

theorem Lexeme.cut {table : InstructionTable} (l : Lexeme) (hl : l.ReadIn mode)
    (hrest : NoneAhead goesOn rest)
    (hcut : Cut table.meaning mode file (p.past l.text) rest pieces tokens rear) :
    Cut table.meaning mode file p (l.text ++ rest) (l.text :: pieces)
      (segmentToken file p l.lead l.word (l.body table) :: tokens) rear :=
  .cons (l.segment hl hrest) hcut

end

theorem Lexeme.readIn_unsigned (l : Lexeme) : l.ReadIn .unsigned := by
  cases l <;> trivial

/-- The token is what was written for the lexeme. -/
structure Lexeme.IsToken (table : InstructionTable) (file : Handle) (text : List Char) (l : Lexeme)
    (t : Token) : Prop where
  body : t.body = l.body table
  file : t.range.file = file
  chars : t.chars text = l.word

/-- A printed program is cut into its lexemes, wherever it stands. -/
theorem Program.exists_cut (table : InstructionTable) (file : Handle) (program : Program)
    (front : List Char) :
    ∃ pieces tokens,
      Cut table.meaning .unsigned file (origin.past front) program.text pieces tokens [] ∧
        List.Forall₂ (fun item ↦ item.1.IsToken table file (front ++ program.text))
          program tokens := by
  -- What has been printed goes over to the front, where it keeps the offsets right.
  induction program generalizing front with
  | nil => exact ⟨[], [], .nil .., .nil⟩
  | cons item program ih =>
      obtain ⟨l, s⟩ := item
      obtain ⟨pieces, tokens, hcut, hread⟩ := ih (front ++ l.text ++ s.text)
      rw [past_append, past_append] at hcut
      obtain ⟨more, hbehind⟩ := Separator.cut_gaps s.gaps hcut
      have hfirst := l.cut l.readIn_unsigned (s.noneAhead _) hbehind
      rw [text_cons]
      refine ⟨_, _, hfirst, .cons ⟨rfl, rfl, ?_⟩ ?_⟩
      · exact chars_segmentToken file front l.lead l.word _ _
      · simpa only [List.append_assoc] using hread

/-- Tokenizing a printed program gives back its lexemes, each as one token that covers all of it
but the mark in front. -/
theorem tokenize_program (fs : Files) (path : String) (program : Program) :
    let (files, id) := fs.register path (String.ofList program.text)
    ∃ tokens, files.tokenize id .unsigned = .ok (.tokens tokens) ∧
      List.Forall₂ (fun item t ↦ t.body = item.1.body .standard ∧
        files.sliceRange t.range = .ok (String.ofList item.1.word)) program tokens := by
  generalize hregister : fs.register path (String.ofList program.text) = registered
  obtain ⟨files, id⟩ := registered
  have hget := Files.get_of_register hregister
  obtain ⟨pieces, tokens, hcut, hread⟩ := program.exists_cut .standard id []
  rw [← InstructionTable.wordBody_standard] at hcut
  have htokenize := tokenize_eq_of_yields (.tokens hcut)
  refine ⟨tokens, ?_, hread.imp ?_⟩
  · rw [Files.tokenize, hget]
    simp only [Except.map, SourceFile.chars, String.toList_ofList]
    exact congrArg _ htokenize
  · rintro item t ⟨hbody, hfile, hchars⟩
    refine ⟨hbody, ?_⟩
    rw [Files.sliceRange, hfile, hget, ← hchars]
    simp [Except.map, SourceFile.slice, SourceFile.chars, Token.chars]

end AsmLexer
