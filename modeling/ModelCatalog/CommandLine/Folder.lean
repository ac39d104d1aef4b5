import ModelCatalog.Text.Search

namespace ModelCatalog.CommandLine

/-- The names that lead to a file or folder from the working folder, the outermost first. -/
abbrev Location := List String

/-- The working folder: what lies in it and below it. -/
structure Folder where
  files : List Location
  folders : List Location
deriving DecidableEq, Repr

/-- Where a path leads. -/
inductive Destination where
  | inside (location : Location)
  | outside
  | blocked
deriving DecidableEq, Repr

/-- A path is shorter than this, in bytes. -/
def pathLimit : Nat :=
  4096

/-- A name is at most this long, in bytes. -/
def nameLimit : Nat :=
  255

/-- The names on a path. A slash may be doubled or stand at the end. -/
def pathNames (path : String) : List String :=
  ((splitAll '/' path.toList).map String.ofList).filter (· ≠ "")

namespace Folder

/-- Follows the names of a path from a location and makes the folders that are missing. A file or an
overlong name is in the way, and a folder that only dots follow cannot be made. -/
def follow (f : Folder) (location : Location) : List String → Folder × Destination
  | [] => (f, .inside location)
  | "." :: rest => f.follow location rest
  | ".." :: rest => if location = [] then (f, .outside) else f.follow location.dropLast rest
  | name :: rest =>
    let next := location ++ [name]
    if f.folders.contains next then f.follow next rest
    else if nameLimit < name.utf8ByteSize ∨ f.files.contains next ∨
        (rest ≠ [] ∧ rest.all (· = ".")) then (f, .blocked)
    else { f with folders := f.folders ++ [next] }.follow next rest

/-- Makes a path as far as that can be done. -/
def make (f : Folder) (path : String) : Folder × Destination :=
  if pathLimit ≤ path.utf8ByteSize then (f, .blocked)
  else if path.toList.head? = some '/' then (f, .outside)
  else f.follow [] (pathNames path)

/-- The path of a file in a folder. -/
def pathIn (folder name : String) : String :=
  if folder = "" ∨ folder.toList.getLast? = some '/' then folder ++ name
  else folder ++ "/" ++ name

/-- Makes a folder and a file in it, and answers whether the file can be written. Where the folder
cannot be made there is no file to be written. -/
def makeFile (f : Folder) (path name : String) : Folder × Bool :=
  match f.make path with
  | (f, .blocked) => (f, true)
  | (f, destination) =>
    if pathLimit ≤ (pathIn path name).utf8ByteSize then (f, false)
    else
      match destination with
      | .inside location => ({ f with files := f.files ++ [location ++ [name]] }, true)
      | .outside | .blocked => (f, true)

/-- The names in the working folder itself, in order. -/
def names (f : Folder) : List String :=
  ((f.files ++ f.folders).filterMap List.head?).eraseDups.mergeSort (· ≤ ·)

end Folder

end ModelCatalog.CommandLine
