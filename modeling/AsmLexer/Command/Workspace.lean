import AsmLexer.Command.Failure
import AsmLexer.Text.Utf8

/-!
# Workspaces

A workspace is a directory held in memory, for running the command without a disk. A path is
followed name by name: it must lead through directories and end at a file. It may leave the
workspace upwards, where there are directories and nothing else.
-/

namespace AsmLexer.Command

inductive Item
  | file (bytes : List UInt8)
  | directory

/-- Files and directories by the names on the way to them. -/
structure Workspace where
  items : List (List String × Item) := []

namespace Workspace

/-- The names after one more step on the way. Above the workspace every step up is a name of its
own. -/
def step (names : List String) (name : String) : List String :=
  if name = "" ∨ name = "." then names
  else if name = ".." ∧ names.all (· = "..") = false then names.dropLast
  else names ++ [name]

def resolve (path : String) : List String :=
  (path.splitOn "/").foldl step []

def add (w : Workspace) (path : String) (item : Item) : Workspace :=
  ⟨w.items ++ [(resolve path, item)]⟩

/-- What stands at a path. The directories on the way to an item need not be added, and those around
the workspace are always there. -/
def item? (w : Workspace) (names : List String) : Option Item :=
  match w.items.lookup names with
  | some item => some item
  | none =>
      if names.all (· = "..") || w.items.any (fun entry ↦ names.isPrefixOf entry.1) then
        some .directory
      else none

/-- The most bytes that a name may have. -/
def nameLimit : Nat := 255

/-- The most bytes that a path may have. -/
def pathLimit : Nat := 4095

/-- Follow the remaining names from a place in the workspace. -/
def follow (w : Workspace) (names : List String) : List String → Except PathFault (List UInt8)
  | [] =>
      match w.item? names with
      | some (.file bytes) => .ok bytes
      | some .directory => .error .isDirectory
      | none => .error .missing
  | name :: rest =>
      match w.item? names with
      | some .directory =>
          if nameLimit < name.utf8ByteSize then .error .tooLong
          else w.follow (step names name) rest
      | some (.file _) => .error .notDirectory
      | none => .error .missing

/-- The bytes of the file at a path. An empty path leads nowhere, and the root is an empty
directory. -/
def bytes (w : Workspace) (path : String) : Except PathFault (List UInt8) :=
  if path.toList.contains '\x00' then .error .holdsNull
  else if path = "" then .error .missing
  else if pathLimit < path.utf8ByteSize then .error .tooLong
  else
    let start : Workspace := if path.startsWith "/" then {} else w
    start.follow [] (path.splitOn "/")

def read (w : Workspace) (path : String) : Except Failure String :=
  match w.bytes path with
  | .ok bytes => .ok (Text.Utf8.decode bytes)
  | .error fault => .error (fault.failure path)

end Workspace

end AsmLexer.Command
