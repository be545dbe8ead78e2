/-
  The console's own parts, and what the CPU reaches when a cartridge is plugged in.

  Nothing drives the data lines behind an unmapped address; the byte that was last on the bus
  is read there.
-/
import Nes.Apu.Basic
import Nes.Cartridge
import Nes.Controller

namespace Nes

/-- Address of the sprite DMA register. -/
def spriteDmaAddress : UInt16 := 0x4014

/-- Address of the APU's status register. -/
def apuStatusAddress : UInt16 := 0x4015

/-- Address of the first pad; a write there strobes both. -/
def pad1Address : UInt16 := 0x4016

/-- Address of the second pad. -/
def pad2Address : UInt16 := 0x4017

/-- First address of the cartridge's PRG space. Boards see all writes from here on. -/
def prgSpace : UInt16 := 0x8000

/-- Cycles that the CPU has to wait for a sprite DMA. -/
def spriteDmaCycles : Nat := 513

/-- What is behind the I/O addresses, apart from the APU. -/
structure IoBlock where
  pad1 : Controller := {}
  pad2 : Controller := {}
  /-- Cycles that the CPU still has to wait. -/
  stall : Nat := 0
  /-- The byte that was last on the data lines. -/
  openBus : UInt8 := 0
deriving DecidableEq, Inhabited

namespace IoBlock

/-- Takes over the buttons held on both pads. -/
def setButtons (io : IoBlock) (buttons : UInt8 × UInt8) : IoBlock :=
  { io with
    pad1 := io.pad1.setButtons buttons.1
    pad2 := io.pad2.setButtons buttons.2 }

/-- Writes the strobe, which both pads share. -/
def writeStrobe (io : IoBlock) (data : UInt8) : IoBlock :=
  { io with pad1 := io.pad1.writeStrobe data, pad2 := io.pad2.writeStrobe data }

/-- Puts a byte on the data lines. -/
@[inline] def drive (io : IoBlock) (data : UInt8) : IoBlock := { io with openBus := data }

end IoBlock

/-- The console's own parts but the CPU, as they are at power-on. -/
structure Hardware where
  map : MemoryMap := .console
  workRam : Ram 0x800 := .blank 0x800
  ppu : Ppu := {}
  apu : Apu := {}
  io : IoBlock := {}

instance : Inhabited Hardware := ⟨{}⟩

/-- All that the CPU reaches. -/
structure System where
  hardware : Hardware
  cartridge : Cartridge
  /-- The board's notes. -/
  journal : Journal := #[]

end Nes
