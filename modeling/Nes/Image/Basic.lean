/-
  A cartridge image: the header and the ROM sections behind it.
-/
import Nes.Digest.Sha1
import Nes.Image.Header

namespace Nes

/-- The unchanging part of a cartridge. -/
structure Image where
  header : Header
  prg : Bytes
  /-- Empty for boards with CHR RAM. -/
  chr : Bytes
  trainer : Option Bytes
  /-- Digest of the whole file; names the cartridge in storage. -/
  key : String
deriving Inhabited

namespace Image

/-- The `length` bytes of a section at `start`. An empty section is always there. -/
def cut (bytes : Bytes) (start length : Nat) (part : Section) : Except LoadError Bytes :=
  if length = 0 then .ok #[]
  else if start + length ≤ bytes.size then .ok (bytes.extract start (start + length))
  else .error (.sectionTooShort part length (bytes.size - start))

/-- Reads an image. Trainer, PRG and CHR follow the header in this order; bytes after them
    are ignored. -/
def parse (bytes : Bytes) : Except LoadError Image := do
  let header ← Header.parse bytes
  let trainerSize := if header.trainer then Header.trainerSize else 0
  let trainer ← cut bytes Header.size trainerSize .trainer
  let prgStart := Header.size + trainerSize
  let prg ← cut bytes prgStart header.prgSize .prg
  let chr ← cut bytes (prgStart + header.prgSize) header.chrSize .chr
  return {
    header, prg, chr
    trainer := if header.trainer then some trainer else none
    key := Digest.sha1 bytes }

/-- Whether the board has CHR RAM in place of CHR ROM. -/
def hasChrRam (image : Image) : Bool := image.chr.isEmpty

/-- Number of `size`-byte PRG banks, at least one. -/
def prgBankCount (image : Image) (size : Nat) : Nat := max (image.prg.size / size) 1

/-- Number of `size`-byte CHR ROM banks; zero for CHR RAM. -/
def chrBankCount (image : Image) (size : Nat) : Nat := image.chr.size / size

end Image
end Nes
