import Taskdown.Text.Bytes

/-!
# Files

What can be found at a path, and a tree of directories in which files are found by their path.
-/

namespace Taskdown

/-- What is found at a path. -/
inductive FileState where
  /-- There is nothing. -/
  | missing
  /-- There is something, but no file that can be read. -/
  | unreadable
  /-- There is a file. -/
  | contents (bytes : ByteArray)

/-- The text of a file, if there is one in UTF-8. -/
def FileState.text? : FileState → Option Text
  | .contents bytes => (String.fromUTF8? bytes).map String.toList
  | _ => none

/-- The file with a text. -/
def FileState.ofText (cs : Text) : FileState := .contents (String.ofList cs).toUTF8

/-- The way from the root of a tree: the names of directories, and at the end perhaps that of a
    file. -/
abbrev Location := List Text

/-- Files by their location. Every file is in a directory. -/
structure FileTree where
  files : List (Location × ByteArray)
  /-- The directories that are there without files. -/
  directories : List Location

namespace FileTree

/-- Is there a directory at a location? -/
def isDirectory (t : FileTree) (l : Location) : Bool :=
  l.isEmpty || t.directories.any (l.isPrefixOf ·) || t.files.any fun (f, _) =>
    f ≠ l && l.isPrefixOf f

/-- The parts of a path between slashes. -/
def parts : Text → List Text
  | [] => [[]]
  | c :: cs =>
    match c, parts cs with
    | '/', rest => [] :: rest
    | _, [] => [[c]]
    | _, part :: rest => (c :: part) :: rest

/-- Follows parts of a path from a location. All but the last must lead to directories. -/
def follow? (t : FileTree) (here : Location) : List Text → Option Location
  | [] => some here
  | part :: rest =>
    if !t.isDirectory here then none
    else if part.isEmpty || part = ['.'] then t.follow? here rest
    else if part = ['.', '.'] then t.follow? here.dropLast rest
    else t.follow? (here ++ [part]) rest

/-- Where a path starts that is followed from a location. -/
def origin (here : Location) (path : Text) : Location := if path.head? = some '/' then [] else here

/-- What is found at a path that is followed from a location. -/
def read (t : FileTree) (here : Location) (path : Text) : FileState :=
  if path.isEmpty then .missing
  else
    match t.follow? (origin here path) (parts path) with
    | none => .missing
    | some l =>
      if t.isDirectory l then .unreadable
      else
        match t.files.lookup l with
        | some bytes => .contents bytes
        | none => .missing

/-- Puts a file at a path, with all directories on the way. -/
def write (t : FileTree) (here : Location) (path : Text) (cs : Text) : FileTree :=
  let l := origin here path ++ (parts path).filter (!·.isEmpty)
  { t with files := (l, (String.ofList cs).toUTF8) :: t.files }

end FileTree

end Taskdown
