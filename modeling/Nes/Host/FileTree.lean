/-
  Files and directories by name, as far as saves need them: names are resolved component by
  component, and every step that the operating system would refuse is a fault.

  A path is a list of names from the root on. Empty names and "." stay where they are, ".." goes
  one directory up. A path that is too long, or has a zero in it, is refused as a whole; a name
  that is too long is refused when it is reached.
-/
import Nes.Bytes
import Nes.FileFault

namespace Nes

/-- What a name stands for. -/
inductive FileEntry
  | file (bytes : Bytes)
  | directory
deriving DecidableEq, Inhabited

/-- Names from the root down, without detours. -/
abbrev FilePath := List String

/-- Files and directories. The root is always there. -/
structure FileTree where
  entries : List (FilePath × FileEntry) := []
deriving DecidableEq, Inhabited

namespace FileTree

/-- The longest name, in bytes. -/
def longestName : Nat := 255

/-- The longest path, in bytes. -/
def longestPath : Nat := 4095

/-- What is at a path. -/
def entry? (tree : FileTree) (path : FilePath) : Option FileEntry :=
  if path.isEmpty then some .directory else tree.entries.lookup path

def isDirectory (tree : FileTree) (path : FilePath) : Bool := tree.entry? path == some .directory

/-- Puts something at a path, in place of what was there. -/
def put (tree : FileTree) (path : FilePath) (entry : FileEntry) : FileTree :=
  ⟨(path, entry) :: tree.entries.filter (·.1 != path)⟩

/-! ## Where names lead -/

/-- A path from the root as text. -/
def pathText (names : List String) : String := "/" ++ "/".intercalate names

/-- Why a path is refused whatever there is, if it is. Only its text counts, not where it
    starts. -/
def pathFault? (path : String) : Option FileFault :=
  if path.contains '\x00' then some .zeroInPath
  else if longestPath < path.utf8ByteSize then some .nameTooLong
  else none

/-- The path one name further. -/
def descend (path : FilePath) (name : String) : Except FileFault FilePath :=
  if name == "" || name == "." then .ok path
  else if name == ".." then .ok path.dropLast
  else if longestName < name.utf8ByteSize then .error .nameTooLong
  else .ok (path ++ [name])

/-- Follows names from a path on. Every name but the last one has to lead to a directory. -/
def resolve (tree : FileTree) (path : FilePath) : List String → Except FileFault FilePath
  | [] => .ok path
  | name :: rest =>
    match tree.entry? path with
    | none => .error .notFound
    | some (.file _) => .error .notDirectory
    | some .directory =>
      match descend path name with
      | .error fault => .error fault
      | .ok path => resolve tree path rest

/-- Where a path leads, whether there is something or not. -/
def locate (tree : FileTree) (names : List String) : Except FileFault FilePath :=
  match pathFault? (pathText names) with
  | some fault => .error fault
  | none => tree.resolve [] names

/-- Whether a path leads to a directory. -/
def leadsToDirectory (tree : FileTree) (names : List String) : Bool :=
  match tree.locate names with
  | .ok path => tree.isDirectory path
  | .error _ => false

/-! ## Files -/

/-- The bytes of the file at a path. -/
def bytesAt (tree : FileTree) (path : FilePath) : Except FileFault Bytes :=
  match tree.entry? path with
  | some (.file bytes) => .ok bytes
  | some .directory => .error .isDirectory
  | none => .error .notFound

/-- The bytes of a file by the names that lead to it. -/
def read (tree : FileTree) (names : List String) : Except FileFault Bytes :=
  match tree.locate names with
  | .error fault => .error fault
  | .ok path => tree.bytesAt path

/-- Where a path as text leads; it starts at the root or at a directory. The empty path leads
    nowhere. -/
def locateFrom (tree : FileTree) (directory : FilePath) (path : String) :
    Except FileFault FilePath :=
  match pathFault? path with
  | some fault => .error fault
  | none =>
    match path.splitOn "/" with
    | [""] => .error .notFound
    | "" :: names => tree.resolve [] names
    | names => tree.resolve directory names

/-- The bytes of a file by its path as text, which starts at the root or at a directory. -/
def readFrom (tree : FileTree) (directory : FilePath) (path : String) :
    Except FileFault Bytes :=
  match tree.locateFrom directory path with
  | .error fault => .error fault
  | .ok path => tree.bytesAt path

/-- Writes a file, in place of an earlier one. -/
def write (tree : FileTree) (names : List String) (bytes : Bytes) : Except FileFault FileTree :=
  match tree.locate names with
  | .error fault => .error fault
  | .ok path =>
    if tree.isDirectory path then .error .isDirectory else .ok (tree.put path (.file bytes))

/-! ## Directories -/

/-- Whether a path says of its last name that it is a directory already: it ends in ".". -/
def endsInDot (names : List String) : Bool := (names.filter (· != "")).getLast? == some "."

/-- The names that have to be gone along to make a directory. In a path that ends in "." the
    last one cannot be made, only those above it. -/
def namesToMake (names : List String) : List String :=
  let steps := names.filter fun name => name != "" && name != "."
  if endsInDot names then steps.dropLast else steps

/-- Goes along names from a path on and makes the directories that are missing. A refusal
    half-way leaves those that are already made. -/
def makeAlong (tree : FileTree) (path : FilePath) : List String → FileTree
  | [] => tree
  | name :: rest =>
    match descend path name with
    | .error _ => tree
    | .ok path =>
      match tree.entry? path with
      | some .directory => makeAlong tree path rest
      | some (.file _) => tree
      | none => makeAlong (tree.put path .directory) path rest

/-- Makes a directory and those above it, as far as they are missing. -/
def makeDirectories (tree : FileTree) (names : List String) : FileTree :=
  match pathFault? (pathText names) with
  | some _ => tree
  | none => tree.makeAlong [] (namesToMake names)

/-- How many files and directories are directly inside a directory. -/
def countIn (tree : FileTree) (path : FilePath) : Nat :=
  tree.entries.countP fun (inner, _) => !inner.isEmpty && inner.dropLast == path

end FileTree
end Nes
