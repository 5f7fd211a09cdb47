import ScriptShell.Dict
import ScriptShell.Text.Lines

/-! # File trees

The files that a program can read. A `FileTree` says of every path what it leads to, whether the
path starts at the root, goes up from the working directory or stays below it. `FileTree.ofList` is
the tree of files that are listed by their path below the working directory: a path is followed part
by part, every part but the last must lead to a directory, and nothing outside the working directory
is there. -/

namespace ScriptShell

/-- What a path leads to. -/
inductive FileEntry where
  | directory
  | file (content : String)
  deriving DecidableEq, Repr, Inhabited

/-- The files that can be read. -/
structure FileTree where
  /-- What a path leads to, if there is something. -/
  find? : String → Option FileEntry := fun _ => none
  deriving Inhabited

/-- The parts of a path. -/
def pathParts (path : String) : List String :=
  (Text.pieces (· == '/') path.toList).map String.ofList

/-- Parts as a path. -/
def joinParts (parts : List String) : String :=
  "/".intercalate parts

/-- Whether a path starts at the root of the file system. -/
def isAbsolute (path : String) : Bool :=
  path.toList.head? == some '/'

/-- A path below a directory, written as one path. -/
def joinPath (directory path : String) : String :=
  if directory.isEmpty || directory.toList.getLast? == some '/' then directory ++ path
  else directory ++ "/" ++ path

/-- Files listed by their path below the working directory. A directory is there when a file is
below it. -/
structure FileListing where
  files : Dict String := {}
  deriving Inhabited

namespace FileListing

/-- The listing of some files. -/
def ofList (files : List (String × String)) : FileListing :=
  ⟨Dict.ofList (files.map fun (path, content) =>
    (joinParts ((pathParts path).filter fun part => part != "" && part != "."), content))⟩

/-- Whether there is a directory at some parts. -/
def hasDirectory (l : FileListing) (parts : List String) : Bool :=
  parts.isEmpty || l.files.keys.any fun key => (joinParts parts ++ "/").toList.isPrefixOf key.toList

/-- Follows the parts of a path from a directory, given by its own parts. -/
def follow (l : FileListing) (place : List String) : List String → Option (List String)
  | [] => some place
  | part :: rest =>
    if !l.hasDirectory place then none
    else if part = "" || part = "." then l.follow place rest
    else if part = ".." then if place.isEmpty then none else l.follow place.dropLast rest
    else l.follow (place ++ [part]) rest

/-- What there is at some parts. -/
def entryAt? (l : FileListing) (parts : List String) : Option FileEntry :=
  match l.files.get? (joinParts parts) with
  | some content => some (.file content)
  | none => if l.hasDirectory parts then some .directory else none

/-- What a path leads to, if there is something. -/
def find? (l : FileListing) (path : String) : Option FileEntry :=
  if path.isEmpty || isAbsolute path then none
  else (l.follow [] (pathParts path)).bind l.entryAt?

end FileListing

namespace FileTree

/-- The tree of some files, which are listed by their path below the working directory. -/
def ofList (files : List (String × String)) : FileTree :=
  ⟨(FileListing.ofList files).find?⟩

/-- Whether a path leads to a file or directory. -/
def hasPath (t : FileTree) (path : String) : Bool :=
  (t.find? path).isSome

/-- The content of the file that a path leads to. -/
def read? (t : FileTree) (path : String) : Option String :=
  match t.find? path with
  | some (.file content) => some content
  | _ => none

end FileTree

end ScriptShell
