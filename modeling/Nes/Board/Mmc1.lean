/-
  MMC1: four registers of five bits, written one bit at a time.

  A write with bit 7 set gives up the bits so far and fixes the last PRG bank at $C000. Any
  other write adds one bit, lowest first, and the fifth one puts the number into the register
  that its address selects: control, the two CHR banks, and the PRG bank.
-/
import Nes.Board.Slot

namespace Nes

/-- The registers of an MMC1. -/
structure Mmc1 where
  /-- The bits so far. -/
  shift : UInt8 := 0
  /-- How many bits there are so far. -/
  count : Nat := 0
  /-- Mirroring in bits 0-1, PRG mode in 2-3, CHR mode in 4. -/
  control : UInt8 := 0x0C
  chrBank0 : UInt8 := 0
  chrBank1 : UInt8 := 0
  prgBank : UInt8 := 0
deriving DecidableEq, Inhabited

namespace Mmc1

/-- The arrangement of the nametables that the control register selects. -/
def mirroring (board : Mmc1) : Mirroring :=
  match board.control.toNat % 4 with
  | 0 => .lower
  | 1 => .upper
  | 2 => .vertical
  | _ => .horizontal

/-- Maps the PRG windows. In mode 2 the first bank is fixed, in mode 3 the last; the other modes
    switch 32 KiB at once. -/
def applyPrg (board : Mmc1) (image : Image) (slot : Slot) : Slot :=
  let bank := board.prgBank.toNat % 16
  match board.control.toNat / 4 % 4 with
  | 3 => slot
    |>.mapPrg image 0x8000 0x4000 bank
    |>.mapPrg image 0xC000 0x4000 (image.prgBankCount 0x4000 - 1)
  | 2 => slot
    |>.mapPrg image 0x8000 0x4000 0
    |>.mapPrg image 0xC000 0x4000 bank
  | _ => slot
    |>.mapPrg image 0x8000 0x4000 (bank / 2 * 2)
    |>.mapPrg image 0xC000 0x4000 (bank / 2 * 2 + 1)

/-- Loads the CHR banks: two of 4 KiB, or one of 8 KiB. -/
def applyChr (board : Mmc1) (image : Image) (slot : Slot) : Slot :=
  if bit board.control 4 then
    slot
      |>.loadChr image 0x0000 0x1000 board.chrBank0.toNat
      |>.loadChr image 0x1000 0x1000 board.chrBank1.toNat
  else slot.loadChr image 0x0000 0x2000 (board.chrBank0.toNat / 2)

/-- Installs everything that the registers select. -/
def applyAll (board : Mmc1) (image : Image) (slot : Slot) : Slot :=
  board.applyChr image (board.applyPrg image (slot.setMirroring board.mirroring))

/-- Gives up the bits so far and selects PRG mode 3. -/
def cancel (board : Mmc1) : Mmc1 :=
  { board with shift := 0, count := 0, control := board.control ||| 0x0C }

/-- After power-on the mirroring is that of the header. -/
def init (board : Mmc1) (image : Image) (kind : ResetKind) (slot : Slot) : Mmc1 × Slot :=
  let board : Mmc1 := match kind with
    | .power => { control := if image.header.mirroring = .vertical then 0x0E else 0x0F }
    | .soft => board.cancel
  (board, board.applyAll image slot)

/-- Puts a number into the register that an address selects. -/
def commit (board : Mmc1) (image : Image) (addr : UInt16) (value : UInt8) (slot : Slot) :
    Mmc1 × Slot :=
  match addr.toNat / 0x2000 % 4 with
  | 0 =>
    let board := { board with control := value }
    (board, board.applyAll image slot)
  | 1 =>
    let board := { board with chrBank0 := value }
    (board, board.applyChr image slot)
  | 2 =>
    let board := { board with chrBank1 := value }
    (board, board.applyChr image slot)
  | _ =>
    let board := { board with prgBank := value }
    (board, board.applyPrg image slot)

/-- A write into cartridge space. -/
def write (board : Mmc1) (image : Image) (addr : UInt16) (data : UInt8) (slot : Slot) :
    Mmc1 × Slot :=
  if bit data 7 then
    let board := board.cancel
    (board, board.applyPrg image slot)
  else
    let shift := board.shift ||| (data &&& 1) <<< UInt8.ofNat board.count
    if board.count + 1 = 5 then
      { board with shift := 0, count := 0 }.commit image addr shift slot
    else ({ board with shift, count := board.count + 1 }, slot)

end Mmc1
end Nes
