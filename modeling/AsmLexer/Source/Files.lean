import AsmLexer.Source.Position
import AsmLexer.Text.Lines
import AsmLexer.Text.Slice

/-!
# Source files

Files are registered once and named by a handle ever after: the first is 0, the next 1, and so on.
Nothing is ever removed or changed.
-/

namespace AsmLexer

structure SourceFile where
  id : Nat
  path : String
  text : String
deriving DecidableEq

namespace SourceFile

/-- The characters that offsets count. -/
def chars (f : SourceFile) : List Char :=
  f.text.toList

def slice (f : SourceFile) (start stop : Int) : String :=
  String.ofList (Text.slice f.chars start stop)

/-- A line without its line feed, counted from zero. -/
def line? (f : SourceFile) (row : Rat) : Option String :=
  (Number.natural? row).bind fun n ↦ (Text.lines f.chars)[n]?.map String.ofList

end SourceFile

structure Files where
  files : Array SourceFile := #[]

namespace Files

def count (fs : Files) : Nat :=
  fs.files.size

/-- Register a text under a path, and give its handle. -/
def register (fs : Files) (path text : String) : Files × Nat :=
  (⟨fs.files.push ⟨fs.count, path, text⟩⟩, fs.count)

def get (fs : Files) (id : Handle) : Except LookupFault SourceFile :=
  match Handle.find? id fs.files with
  | some f => .ok f
  | none => .error (.file id)

/-- Whether a handle is a whole number among those given out. -/
def isValid (fs : Files) (id : Handle) : Bool :=
  id.isInt && 0 ≤ id && id < fs.count

/-- What is asked of the file that any number names. -/
def lookupAny {α : Type} (find : Handle → Except LookupFault α) : AnyHandle → Except String α :=
  AnyHandle.lookup "Invalid FileId: " find

def getAny (fs : Files) : AnyHandle → Except String SourceFile :=
  lookupAny fs.get

def isValidAny (fs : Files) (id : AnyHandle) : Bool :=
  id.isInt && id.atLeast 0 && id.below fs.count

def sliceRange (fs : Files) (r : Range) : Except LookupFault String :=
  (fs.get r.file).map fun f ↦ f.slice r.start.offset r.stop.offset

/-- A line of a file, if it has one with this number. -/
def line (fs : Files) (id : Handle) (row : Rat) : Except LookupFault (Option String) :=
  (fs.get id).map fun f ↦ f.line? row

@[simp] theorem getAny_finite (fs : Files) (id : Handle) :
    fs.getAny (.finite id) = (fs.get id).mapError LookupFault.message := rfl

@[simp] theorem isValidAny_finite (fs : Files) (id : Handle) :
    fs.isValidAny (.finite id) = fs.isValid id := rfl

@[simp] theorem count_register (fs : Files) (path text : String) :
    (fs.register path text).1.count = fs.count + 1 := by
  simp [register, count]

theorem get_of_register {fs files : Files} {path text : String} {id : Nat}
    (h : fs.register path text = (files, id)) : files.get id = .ok ⟨fs.count, path, text⟩ := by
  obtain ⟨rfl, rfl⟩ := Prod.mk.inj h.symm
  simp [get, count]

end Files

end AsmLexer
