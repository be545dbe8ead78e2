/-
  The boards made of a few gates: NROM without any register, and UxROM, CNROM and AxROM with
  a single one.
-/
import Nes.Board.Slot

namespace Nes

namespace Nrom

/-- Two fixed PRG windows, the second with the last bank, and one CHR bank. -/
def init (image : Image) (slot : Slot) : Slot :=
  slot
    |>.mapPrg image 0x8000 0x4000 0
    |>.mapPrg image 0xC000 0x4000 (image.prgBankCount 0x4000 - 1)
    |>.loadChr image 0x0000 0x2000 0
    |>.setMirroring image.header.mirroring

end Nrom

/-- A switched PRG window at $8000 and the last bank at $C000. -/
structure Uxrom where
  bank : UInt8 := 0
deriving DecidableEq, Inhabited

namespace Uxrom

def init (board : Uxrom) (image : Image) (kind : ResetKind) (slot : Slot) : Uxrom × Slot :=
  let board : Uxrom := if kind = .power then {} else board
  (board, slot
    |>.mapPrg image 0x8000 0x4000 board.bank.toNat
    |>.mapPrg image 0xC000 0x4000 (image.prgBankCount 0x4000 - 1)
    |>.loadChr image 0x0000 0x2000 0
    |>.setMirroring image.header.mirroring)

/-- Any write selects the bank. -/
def write (image : Image) (data : UInt8) (slot : Slot) : Uxrom × Slot :=
  (⟨data⟩, slot.mapPrg image 0x8000 0x4000 data.toNat)

end Uxrom

/-- Fixed PRG windows and a switched CHR bank. -/
structure Cnrom where
  bank : UInt8 := 0
deriving DecidableEq, Inhabited

namespace Cnrom

def init (board : Cnrom) (image : Image) (kind : ResetKind) (slot : Slot) : Cnrom × Slot :=
  let board : Cnrom := if kind = .power then {} else board
  (board, slot
    |>.mapPrg image 0x8000 0x4000 0
    |>.mapPrg image 0xC000 0x4000 (image.prgBankCount 0x4000 - 1)
    |>.loadChr image 0x0000 0x2000 board.bank.toNat
    |>.setMirroring image.header.mirroring)

/-- Any write selects the bank. -/
def write (image : Image) (data : UInt8) (slot : Slot) : Cnrom × Slot :=
  (⟨data⟩, slot.loadChr image 0x0000 0x2000 data.toNat)

end Cnrom

/-- One switched PRG window of 32 KiB, and a choice between two nametables. -/
structure Axrom where
  select : UInt8 := 0
deriving DecidableEq, Inhabited

namespace Axrom

/-- Installs what the register selects: the bank in bits 0-2, the nametable in bit 4. -/
def apply (board : Axrom) (image : Image) (slot : Slot) : Slot :=
  let bank := board.select.toNat % 8
  slot
    |>.mapPrg image 0x8000 0x4000 (bank * 2)
    |>.mapPrg image 0xC000 0x4000 (bank * 2 + 1)
    |>.setMirroring (if bit board.select 4 then .upper else .lower)

def init (board : Axrom) (image : Image) (kind : ResetKind) (slot : Slot) : Axrom × Slot :=
  let board : Axrom := if kind = .power then {} else board
  (board, board.apply image (slot.loadChr image 0x0000 0x2000 0))

/-- Any write sets the register. -/
def write (image : Image) (data : UInt8) (slot : Slot) : Axrom × Slot :=
  let board : Axrom := ⟨data⟩
  (board, board.apply image slot)

end Axrom
end Nes
