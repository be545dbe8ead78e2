/-
  Why a cartridge cannot be loaded, and how each cause reads.
-/
import Nes.Bytes
import Nes.FileFault

namespace Nes

/-- The parts of an image file that follow its header. -/
inductive Section
  | trainer
  | prg
  | chr
deriving DecidableEq, Inhabited

/-- How a section is called in messages. -/
def Section.label : Section → String
  | .trainer => "trainer"
  | .prg => "PRG ROM"
  | .chr => "CHR ROM"

/-- Why a cartridge cannot be loaded. Nothing after loading can fail. -/
inductive LoadError
  /-- The file is shorter than a header. -/
  | tooShort (actual : Nat)
  /-- The file does not start with the magic bytes. -/
  | invalidMagic
  /-- A section is shorter than the header says. -/
  | sectionTooShort (part : Section) (expected actual : Nat)
  /-- There is no board with this number. -/
  | unsupportedMapper (id : UInt16)
  /-- The image file cannot be read. -/
  | unreadable (path : String) (fault : FileFault)
  /-- No cartridge was ever chosen. -/
  | noCartridge
deriving DecidableEq, Inhabited

/-- The text shown for a load error. -/
def LoadError.message : LoadError → String
  | .tooShort actual => s!"header expected 16 bytes, got {actual}"
  | .invalidMagic => "missing NES magic bytes"
  | .sectionTooShort part expected actual =>
    s!"{part.label} section expected {expected} bytes, got {actual}"
  | .unsupportedMapper id => s!"mapper {id.toNat} is not supported"
  | .unreadable path fault => s!"failed to read cartridge {path}: {fault.message}"
  | .noCartridge => "no cartridge parameter has been set"

end Nes
