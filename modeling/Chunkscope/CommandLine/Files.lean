import Chunkscope.Bytes

/-!
The files that a run can see, and the one that a path names. A path is walked name by name: every
name but the last one has to be that of a directory, and the last one has to be that of a file.
-/

namespace Chunkscope.CommandLine

/-- Why a file could not be read. -/
inductive FileError where
  | notFound
  | permissionDenied
  /-- A file stands where the path goes on. -/
  | notDirectory
  /-- The path ends at a directory. -/
  | isDirectory
  | nameTooLong
  | other (reason : String)
  deriving DecidableEq, Repr

def FileError.message : FileError → String
  | .notFound => "No such file or directory (os error 2)"
  | .permissionDenied => "Permission denied (os error 13)"
  | .notDirectory => "Not a directory (os error 20)"
  | .isDirectory => "Is a directory (os error 21)"
  | .nameTooLong => "File name too long (os error 36)"
  | .other reason => reason

inductive FileTree where
  | file (content : Bytes)
  | directory (entries : List (String × FileTree))

namespace FileTree

/-- The most bytes that one name has. -/
def maxNameSize : Nat := 255

/-- Walks the names of a path. `above` holds the directories passed, innermost first; the root is
above itself. The empty name, as between two slashes or behind the last, stays where it is. -/
def walk (above : List FileTree) : FileTree → List String → Except FileError FileTree
  | tree, [] => .ok tree
  | .file _, _ :: _ => .error .notDirectory
  | .directory entries, name :: names =>
      if name = "" ∨ name = "." then walk above (.directory entries) names
      else if name = ".." then
        match above with
        | [] => walk [] (.directory entries) names
        | parent :: above => walk above parent names
      else if maxNameSize < name.utf8ByteSize then .error .nameTooLong
      else
        match entries.lookup name with
        | none => .error .notFound
        | some entry => walk (.directory entries :: above) entry names

example : walk [] (.directory [("a", .directory [("b", .file [1])])]) ["..", "a", ".", "", "b"] =
    .ok (.file [1]) := by
  rfl

example : walk [] (.directory [("a", .file [1])]) ["b", ""] = .error .notFound := by rfl

end FileTree

structure Files where
  root : FileTree
  /-- The names on the way from the root to where a path starts that has no leading slash. -/
  working : List String

namespace Files

/-- The most bytes that a path has. -/
def maxPathSize : Nat := 4095

/-- The bytes of the file that a path names. -/
def read (files : Files) (path : String) : Except FileError Bytes :=
  if maxPathSize < path.utf8ByteSize then .error .nameTooLong
  else
    let names := path.splitOn "/"
    let start := if path.startsWith "/" then [] else files.working
    match FileTree.walk [] files.root (start ++ names) with
    | .error failure => .error failure
    | .ok (.directory _) => .error .isDirectory
    | .ok (.file content) => .ok content

end Files

end Chunkscope.CommandLine
