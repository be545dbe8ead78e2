/-
  Save RAM at $6000-$7FFF: 8 KiB on the cartridge that a battery may keep.
-/
import Nes.Ram

namespace Nes

/-- Size of save RAM. -/
abbrev saveSize : Nat := 0x2000

/-- Save RAM and a count of the writes to it. -/
structure SaveRam where
  ram : Ram saveSize
  /-- Writes since the cartridge was built, modulo 2³². -/
  writes : UInt32
deriving Inhabited

namespace SaveRam

/-- Cleared and never written. -/
def blank : SaveRam := ⟨Ram.blank saveSize, 0⟩

@[inline] def read (save : SaveRam) (offset : Nat) : UInt8 := save.ram.read offset

/-- A write by the CPU; it is counted. -/
@[inline] def write (save : SaveRam) (offset : Nat) (value : UInt8) : SaveRam :=
  ⟨save.ram.write offset value, save.writes + 1⟩

/-- Copies bytes in from `offset` on, uncounted. -/
def loadAt (save : SaveRam) (offset : Nat) (bytes : Bytes) : SaveRam :=
  { save with ram := save.ram.load offset bytes }

/-- Replaces the contents by a stored image, filled with zeros or cut to size, uncounted. -/
def load (save : SaveRam) (bytes : Bytes) : SaveRam :=
  { save with ram := (Ram.blank saveSize).load 0 bytes }

/-- The contents as a byte string. -/
def bytes (save : SaveRam) : Bytes := save.ram.bytes

end SaveRam
end Nes
