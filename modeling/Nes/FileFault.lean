/-
  Why the operating system refuses a file, in its own words.
-/

namespace Nes

/-- Why a file is refused. -/
inductive FileFault
  /-- Nothing has this name. -/
  | notFound
  /-- The name is that of a directory. -/
  | isDirectory
  /-- A name that others follow is not that of a directory. -/
  | notDirectory
  /-- A name or the whole path is too long. -/
  | nameTooLong
  /-- The path has a zero in it. -/
  | zeroInPath
deriving DecidableEq, Inhabited

/-- The operating system's wording. -/
def FileFault.message : FileFault → String
  | .notFound => "No such file or directory (os error 2)"
  | .isDirectory => "Is a directory (os error 21)"
  | .notDirectory => "Not a directory (os error 20)"
  | .nameTooLong => "File name too long (os error 36)"
  | .zeroInPath => "file name contained an unexpected NUL byte"

end Nes
