import AsmLexer.Number.Text

/-!
# Message templates

A slot is a word of ASCII letters, digits and underscores between braces. A template is read once,
from left to right, into plain characters and slots; braces that enclose no word are plain
characters. Filling a template puts the text of an argument in place of each slot that has one and
leaves every other slot as it is written. What was filled in is not read again. Main statement: the
pieces of a template, written out, are the template.
-/

namespace AsmLexer

/-- What a slot is filled with. A number of double precision may also be infinite or none. -/
inductive Argument
  | text (s : String)
  | number (q : Rat)
  | integer (n : Int)
  | infinity (negative : Bool)
  | notANumber

namespace Argument

def toText : Argument → String
  | .text s => s
  | .number q => Number.text q
  | .integer n => toString n
  | .infinity negative => if negative then "-Infinity" else "Infinity"
  | .notANumber => "NaN"

end Argument

namespace Template

inductive Piece
  | char (c : Char)
  | slot (name : List Char)
deriving DecidableEq

def isWordChar (c : Char) : Bool :=
  c.isAlphanum || c == '_'

/-- The name of the slot that an opening brace before `text` begins, and what follows the slot. -/
def slot? (text : List Char) : Option (List Char × List Char) :=
  let name := text.takeWhile isWordChar
  match text.dropWhile isWordChar with
  | '\x7d' :: rest => if name = [] then none else some (name, rest)
  | _ => none

/-- A slot is written as its name and a closing brace. -/
theorem eq_of_slot? {text name rest : List Char} (h : slot? text = some (name, rest)) :
    text = name ++ '\x7d' :: rest := by
  unfold slot? at h
  dsimp only at h
  split at h
  · rename_i tail hdrop
    split at h
    · cases h
    · obtain ⟨rfl, rfl⟩ : text.takeWhile isWordChar = name ∧ tail = rest := by simpa using h
      rw [← hdrop, List.takeWhile_append_dropWhile]
  · cases h

theorem length_rest_slot?_lt {text name rest : List Char} (h : slot? text = some (name, rest)) :
    rest.length < text.length := by
  rw [eq_of_slot? h, List.length_append, List.length_cons]
  omega

def pieces : List Char → List Piece
  | [] => []
  | c :: cs =>
      if c = '\x7b' then
        match _ : slot? cs with
        | some (name, rest) => .slot name :: pieces rest
        | none => .char c :: pieces cs
      else .char c :: pieces cs
termination_by text => text.length
decreasing_by
  · have := length_rest_slot?_lt ‹_›
    simp only [List.length_cons]
    omega
  · simp
  · simp

def Piece.source : Piece → List Char
  | .char c => [c]
  | .slot name => '\x7b' :: (name ++ ['\x7d'])

theorem flatMap_source_pieces (text : List Char) : (pieces text).flatMap Piece.source = text := by
  fun_induction pieces text with
  | case1 => rfl
  | case2 cs name rest h ih =>
      rw [List.flatMap_cons, ih, eq_of_slot? h]
      simp [Piece.source]
  | case3 cs h ih => rw [List.flatMap_cons, ih, Piece.source, List.singleton_append]
  | case4 c cs hc ih => rw [List.flatMap_cons, ih, Piece.source, List.singleton_append]

def Piece.fill (args : List (String × Argument)) : Piece → List Char
  | .char c => [c]
  | .slot name =>
      match args.lookup (String.ofList name) with
      | some argument => argument.toText.toList
      | none => Piece.source (.slot name)

def interpolate (template : String) (args : List (String × Argument)) : String :=
  String.ofList ((pieces template.toList).flatMap (Piece.fill args))

end Template

end AsmLexer
