/-
  Saves in a directory, one file for each cartridge.
-/
import Nes.Host.FileTree
import Nes.Host.Storage

namespace Nes

/-- A directory for saves; it is made when the first save comes. -/
structure SaveDirectory where
  tree : FileTree := {}
  /-- The names that lead to the directory. -/
  names : List String
deriving DecidableEq, Inhabited

namespace SaveDirectory

/-- The name of a cartridge's file. -/
def fileName (key : String) : String := key ++ ".sav"

/-- The names that lead to a cartridge's file. A key that starts at the root leads there, and a
    slash at the end of the directory's path is the one before the file's name. -/
def namesFor (directory : SaveDirectory) (key : String) : List String :=
  match (fileName key).splitOn "/" with
  | "" :: names => names
  | names =>
    if directory.names.getLast? = some "" then directory.names.dropLast ++ names
    else directory.names ++ names

/-- Whether the directory is there. -/
def isThere (directory : SaveDirectory) : Bool := directory.tree.leadsToDirectory directory.names

/-- How many files are in the directory. -/
def count (directory : SaveDirectory) : Nat :=
  match directory.tree.locate directory.names with
  | .ok path => directory.tree.countIn path
  | .error _ => 0

/-- The file of a cartridge. -/
def get? (directory : SaveDirectory) (key : String) : Option Bytes :=
  (directory.tree.read (directory.namesFor key)).toOption

/-- Makes the directory. -/
def make (directory : SaveDirectory) : SaveDirectory :=
  { directory with tree := directory.tree.makeDirectories directory.names }

/-- Writes the file of a cartridge. Where the directory cannot be made there is no way to
    write. -/
def put (directory : SaveDirectory) (key : String) (data : Bytes) : SaveDirectory :=
  let directory := directory.make
  if directory.isThere then
    match directory.tree.write (directory.namesFor key) data with
    | .ok tree => { directory with tree }
    | .error _ => directory
  else directory

instance : Storage SaveDirectory where
  load directory key size := ((directory.get? key).getD #[]).resize size 0
  save directory key data := directory.put key data

end SaveDirectory
end Nes
