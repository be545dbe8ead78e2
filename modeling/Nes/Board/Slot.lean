/-
  What a cartridge board can reach while one of its hooks runs: the memory map, the PPU's
  pattern tables and nametables, and the IRQ line.

  Boards never read ROM. They map PRG banks into the CPU's address space and copy CHR banks
  into the pattern tables.
-/
import Nes.Image.Basic
import Nes.MemoryMap
import Nes.Ppu.Basic

namespace Nes

/-- The moments at which a board is called. -/
inductive Hook
  /-- Power-on. -/
  | init
  /-- The reset button. -/
  | soft
  /-- A write into cartridge space. -/
  | write
  /-- Before a line is rendered. -/
  | preLine
  /-- After a line is rendered. -/
  | hblank
  /-- The start of the vertical blank. -/
  | vblank
deriving DecidableEq, Inhabited

/-- What made the CPU or the PPU call a board. -/
structure Call where
  hook : Hook
  /-- The scanline, for the hooks that run once per line. -/
  line : Option Nat := none
  /-- Address of a write. -/
  addr : UInt16 := 0
  /-- Data of a write. -/
  data : UInt8 := 0
deriving DecidableEq, Inhabited

/-- What a board saw when it was asked to take a note. -/
structure Note where
  call : Call
  irq : Bool
  rendering : Bool
  chrRam : Bool
  /-- PRG banks of 8 and of 32 KiB. -/
  prgBanks : Nat × Nat
  /-- CHR banks of 1 and of 8 KiB. -/
  chrBanks : Nat × Nat
deriving DecidableEq, Inhabited

/-- The notes of a request, the first one first. -/
abbrev Journal := Array Note

/-- What a board can change. -/
structure Slot where
  map : MemoryMap
  ppu : Ppu
  /-- The cartridge's IRQ line. -/
  irq : Bool
  journal : Journal

namespace Slot

/-- Maps the PRG bank with number `bank`, in units of `size` bytes, at address `start`. The
    number wraps at the size of the ROM. A window past the last address is not mapped. -/
def mapPrg (image : Image) (start : UInt16) (size bank : Nat) (slot : Slot) : Slot :=
  let last := start.toNat + size - 1
  if 0xFFFF < last then slot
  else
    let base := bank % image.prgBankCount size * size
    { slot with map := slot.map.assign .prg start (UInt16.ofNat last) base }

/-- Copies the CHR ROM bank with number `bank`, in units of `size` bytes, into the pattern
    tables from `addr` on. The number wraps at the size of the ROM. Boards with CHR RAM keep
    what they have. -/
def loadChr (image : Image) (addr : UInt16) (size bank : Nat) (slot : Slot) : Slot :=
  let count := image.chrBankCount size
  if count = 0 then slot
  else
    let offset := bank % count * size
    { slot with ppu := slot.ppu.writeBlock addr.toNat (image.chr.extract offset (offset + size)) }

/-- Switches the nametables. -/
def setMirroring (mirroring : Mirroring) (slot : Slot) : Slot :=
  { slot with ppu := slot.ppu.setMirroring mirroring }

/-- Drives the IRQ line. -/
def setIrq (level : Bool) (slot : Slot) : Slot := { slot with irq := level }

/-- Takes a note. -/
def note (image : Image) (call : Call) (slot : Slot) : Slot :=
  { slot with
    journal := slot.journal.push {
      call, irq := slot.irq, rendering := slot.ppu.rendering, chrRam := image.hasChrRam
      prgBanks := (image.prgBankCount 0x2000, image.prgBankCount 0x8000)
      chrBanks := (image.chrBankCount 0x400, image.chrBankCount 0x2000) } }

end Slot
end Nes
