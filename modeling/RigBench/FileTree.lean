import RigBench.Bytes

/-!
Files by their paths, as a program that only reads finds them.
-/
namespace RigBench

inductive FileFault
  | missing
  | throughFile
  | nameTooLong
  | directory
  | notText
  | other (text : String)
  deriving DecidableEq

namespace FileFault

def message : FileFault → String
  | missing => "No such file or directory (os error 2)"
  | throughFile => "Not a directory (os error 20)"
  | nameTooLong => "File name too long (os error 36)"
  | directory => "Is a directory (os error 21)"
  | notText => "stream did not contain valid UTF-8"
  | other text => text

/-- There is something at the path all the same. -/
def reached : FileFault → Bool
  | directory | notText | other _ => true
  | missing | throughFile | nameTooLong => false

end FileFault

abbrev Lookup := String → Except FileFault Bytes

namespace Lookup

def exists? (files : Lookup) (path : String) : Bool :=
  match files path with
  | .ok _ => true
  | .error e => e.reached

def text (files : Lookup) (path : String) : Except FileFault String := do
  match String.fromUTF8? ⟨(← files path).toArray⟩ with
  | some s => .ok s
  | none => .error .notText

end Lookup

abbrev Place := List String

/-- Files at their places, seen from a working directory. A place that leads to a file or to the
working directory is a directory. -/
structure FileTree where
  workingDirectory : Place := []
  files : List (Place × Bytes) := []

namespace FileTree

def isDirectory (t : FileTree) (p : Place) : Bool :=
  p.isPrefixOf t.workingDirectory ||
    t.files.any fun (q, _) => p.length < q.length && p.isPrefixOf q

def get (t : FileTree) (p : Place) : Except FileFault Bytes :=
  match t.files.find? (·.1 == p) with
  | some (_, bytes) => .ok bytes
  | none => .error (if t.isDirectory p then .directory else .missing)

/-- Longest name of a file, in bytes. -/
def maxName : Nat := 255

/-- Paths are shorter than this, in bytes. -/
def pathLimit : Nat := 4096

/-- Go along the names of a path. Each is looked up in a directory, the empty name and `.` stay
there, and `..` goes back to the one above; above the root is the root. -/
def walk (t : FileTree) : Place → List String → Except FileFault Place
  | p, [] => .ok p
  | p, name :: rest =>
    match t.get p with
    | .ok _ => .error .throughFile
    | .error .directory =>
      if name = "" || name = "." then walk t p rest
      else if name = ".." then walk t p.dropLast rest
      else if maxName < name.utf8ByteSize then .error .nameTooLong
      else walk t (p ++ [name]) rest
    | .error e => .error e

def read (t : FileTree) : Lookup := fun path =>
  if path = "" then .error .missing
  else if pathLimit ≤ path.utf8ByteSize then .error .nameTooLong
  else do
    let start := if path.startsWith "/" then [] else t.workingDirectory
    t.get (← t.walk start (path.splitOn "/"))

def ofTexts (workingDirectory : Place) (texts : List (String × String)) : FileTree where
  workingDirectory
  files := texts.map fun (path, text) =>
    (workingDirectory ++ (path.splitOn "/").filter (fun name => name != "" && name != "."),
      text.toUTF8.toList)

end FileTree
end RigBench
