/-
  The sixteen header bytes of a cartridge image.

  Bytes 0-3 are the magic, 4 and 5 count the 16 KiB PRG and 8 KiB CHR banks, 6 and 7 hold
  flags: mirroring, battery, trainer, four-screen and the two halves of the board number.
-/
import Nes.Word
import Nes.Mirroring
import Nes.Image.Error

namespace Nes

/-- What a header says. -/
structure Header where
  /-- PRG ROM size in 16 KiB banks. -/
  prgBanks : Nat
  /-- CHR ROM size in 8 KiB banks; zero means CHR RAM. -/
  chrBanks : Nat
  /-- Number of the board. -/
  mapper : UInt16
  mirroring : Mirroring
  battery : Bool
  trainer : Bool
deriving DecidableEq, Inhabited

namespace Header

/-- Length of the header. -/
def size : Nat := 16

/-- Length of a trainer. -/
def trainerSize : Nat := 512

/-- Unit of `prgBanks`. -/
def prgBankSize : Nat := 0x4000

/-- Unit of `chrBanks`. -/
def chrBankSize : Nat := 0x2000

/-- The first four bytes of every image. -/
def magic : Bytes := #[0x4E, 0x45, 0x53, 0x1A]

/-- Four-screen wins over the mirroring bit. -/
def mirroringOf (flags6 : UInt8) : Mirroring :=
  if bit flags6 3 then .fourScreen else if bit flags6 0 then .vertical else .horizontal

/-- The low half of the board number is in flags 6, the high half in flags 7. -/
def mapperOf (flags6 flags7 : UInt8) : UInt16 :=
  (flags7 / 16 * 16 + flags6 / 16).toUInt16

/-- Reads the header of an image. -/
def parse (bytes : Bytes) : Except LoadError Header :=
  if h : bytes.size < size then .error (.tooShort bytes.size)
  else
    have h : 16 ≤ bytes.size := Nat.le_of_not_lt h
    if bytes.extract 0 4 ≠ magic then .error .invalidMagic
    else
      let flags6 := bytes[6]
      .ok {
        prgBanks := bytes[4].toNat
        chrBanks := bytes[5].toNat
        mapper := mapperOf flags6 bytes[7]
        mirroring := mirroringOf flags6
        battery := bit flags6 1
        trainer := bit flags6 2 }

/-- Length of the PRG section. -/
def prgSize (h : Header) : Nat := h.prgBanks * prgBankSize

/-- Length of the CHR section. -/
def chrSize (h : Header) : Nat := h.chrBanks * chrBankSize

end Header
end Nes
