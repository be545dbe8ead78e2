/-
  What the command line asks for.
-/
import Nes.Console.Request
import Nes.Host.SaveDirectory

namespace Nes

/-- A run without a screen. -/
structure Options where
  /-- The image file. -/
  image : String
  /-- How many frames to run. -/
  frames : Nat := 600
  /-- Where the sound goes: a file of unsigned samples. -/
  sound : Option String := none
  /-- A directory for saves. Without one they are lost at the end. -/
  saves : Option String := none
  /-- The number of the board, in place of the one in the header. -/
  mapper : Option UInt16 := none
  /-- Buttons of the first pad that are held all the time. -/
  buttons : UInt8 := 0
  /-- Waits until each frame is due. -/
  realtime : Bool := false
deriving DecidableEq, Inhabited

/-- Why a command line cannot be understood. -/
inductive OptionsError
  | noImage
  | secondImage (path : String)
  | unknownOption (name : String)
  | missingValue (name : String)
  | badValue (name value : String)
deriving DecidableEq, Inhabited

/-- The text shown for a bad command line. -/
def OptionsError.message : OptionsError → String
  | .noImage => "no image file given"
  | .secondImage path => s!"unexpected argument {path}"
  | .unknownOption name => s!"unknown option {name}"
  | .missingValue name => s!"option {name} needs a value"
  | .badValue name value => s!"option {name} cannot be {value}"

namespace Options

/-- How to use the command line. -/
def usage : String :=
  "usage: nes IMAGE [--frames N] [--pcm FILE] [--save-dir DIR] [--mapper ID] " ++
    "[--buttons MASK] [--realtime]"

/-- A number below a limit. -/
def number (name value : String) (limit : Nat) : Except OptionsError Nat :=
  match value.toNat? with
  | some n => if n < limit then .ok n else .error (.badValue name value)
  | none => .error (.badValue name value)

/-- Sets an option that has a value. -/
def set (options : Options) (name value : String) : Except OptionsError Options :=
  match name with
  | "--frames" => return { options with frames := ← number name value 0x100000000 }
  | "--pcm" => return { options with sound := some value }
  | "--save-dir" => return { options with saves := some value }
  | "--mapper" =>
    return { options with mapper := some (UInt16.ofNat (← number name value 0x10000)) }
  | "--buttons" => return { options with buttons := UInt8.ofNat (← number name value 0x100) }
  | _ => .error (.unknownOption name)

/-- Reads arguments on top of what is already known. -/
def read (options : Options) : List String → Except OptionsError Options
  | [] => if options.image.isEmpty then .error .noImage else .ok options
  | "--realtime" :: rest => read { options with realtime := true } rest
  | argument :: rest =>
    if argument.startsWith "-" then
      match rest with
      | [] => .error (.missingValue argument)
      | value :: rest => do read (← options.set argument value) rest
    else if options.image.isEmpty then read { options with image := argument } rest
    else .error (.secondImage argument)

/-- Reads a command line. -/
def parse (arguments : List String) : Except OptionsError Options :=
  read { image := "" } arguments

/-- Where the cartridge comes from. -/
def source (options : Options) (bytes : Bytes) : Source :=
  match options.mapper with
  | some id => .imageFor id bytes
  | none => .image bytes

/-- Where the save of a cartridge is. -/
def savePath? (options : Options) (key : String) : Option String :=
  options.saves.map fun directory => directory ++ "/" ++ SaveDirectory.fileName key

end Options
end Nes
