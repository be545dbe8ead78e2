/-
  MMC3: eight bank registers, switched mirroring, and a counter of rendered lines that raises
  an IRQ.
-/
import Nes.Board.Slot

namespace Nes

/-- The registers of an MMC3. -/
structure Mmc3 where
  /-- Bank register in bits 0-2, PRG mode in 6, CHR halves swapped in 7. -/
  select : UInt8 := 0
  /-- Two CHR banks of 2 KiB, four of 1 KiB, and two PRG banks of 8 KiB. -/
  banks : Vector UInt8 8 := Vector.replicate 8 0
  irqLatch : UInt8 := 0
  irqCounter : UInt8 := 0
  irqReload : Bool := false
  irqEnabled : Bool := false
  /-- The mirroring cannot be switched. -/
  fourScreen : Bool := false
deriving DecidableEq, Inhabited

namespace Mmc3

/-- Bank registers after power-on. -/
def initialBanks : Vector UInt8 8 := #v[0, 2, 4, 5, 6, 7, 0, 1]

/-- The number in a bank register. -/
def bank (board : Mmc3) (i : Nat) : Nat := (board.banks.get (wrap i)).toNat

/-- Maps the four PRG windows. The last bank is fixed; the PRG mode swaps the first and the
    third window. -/
def applyPrg (board : Mmc3) (image : Image) (slot : Slot) : Slot :=
  let count := image.prgBankCount 0x2000
  let switched := board.bank 6 % 64
  let fixed := count - 2
  let (low, high) := if bit board.select 6 then (fixed, switched) else (switched, fixed)
  slot
    |>.mapPrg image 0x8000 0x2000 low
    |>.mapPrg image 0xA000 0x2000 (board.bank 7 % 64)
    |>.mapPrg image 0xC000 0x2000 high
    |>.mapPrg image 0xE000 0x2000 (count - 1)

/-- Loads the CHR banks: the two large ones into one half, the four small ones into the
    other. -/
def applyChr (board : Mmc3) (image : Image) (slot : Slot) : Slot :=
  let (large, small) : UInt16 × UInt16 :=
    if bit board.select 7 then (0x1000, 0x0000) else (0x0000, 0x1000)
  slot
    |>.loadChr image large 0x800 (board.bank 0 / 2)
    |>.loadChr image (large + 0x800) 0x800 (board.bank 1 / 2)
    |>.loadChr image small 0x400 (board.bank 2)
    |>.loadChr image (small + 0x400) 0x400 (board.bank 3)
    |>.loadChr image (small + 0x800) 0x400 (board.bank 4)
    |>.loadChr image (small + 0xC00) 0x400 (board.bank 5)

/-- Installs the banks. -/
def applyBanks (board : Mmc3) (image : Image) (slot : Slot) : Slot :=
  board.applyChr image (board.applyPrg image slot)

/-- IRQs are off at first, and the mirroring is that of the header. -/
def init (board : Mmc3) (image : Image) (kind : ResetKind) (slot : Slot) : Mmc3 × Slot :=
  let board : Mmc3 := match kind with
    | .power => { banks := initialBanks }
    | .soft => board
  let mirroring := image.header.mirroring
  let board := { board with irqEnabled := false, fourScreen := mirroring == .fourScreen }
  (board, board.applyBanks image (slot.setMirroring mirroring))

/-- A write into cartridge space. The address selects one of eight registers. -/
def write (board : Mmc3) (image : Image) (addr : UInt16) (data : UInt8) (slot : Slot) :
    Mmc3 × Slot :=
  match addr.toNat / 0x2000 % 4, addr.toNat % 2 with
  | 0, 0 =>
    let board := { board with select := data }
    (board, board.applyBanks image slot)
  | 0, _ =>
    let i : Fin 8 := wrap board.select.toNat
    let board := { board with banks := board.banks.set i data }
    (board, board.applyBanks image slot)
  | 1, 0 =>
    if board.fourScreen then (board, slot)
    else (board, slot.setMirroring (if bit data 0 then .horizontal else .vertical))
  -- write protection of the save RAM, which is not emulated
  | 1, _ => (board, slot)
  | 2, 0 => ({ board with irqLatch := data }, slot)
  | 2, _ => ({ board with irqCounter := 0, irqReload := true }, slot)
  | _, 0 => ({ board with irqEnabled := false }, slot.setIrq false)
  | _, _ => ({ board with irqEnabled := true }, slot)

/-- Counts a line. At zero the counter starts again from the latch. -/
def countLine (board : Mmc3) : Mmc3 :=
  if board.irqCounter = 0 || board.irqReload then
    { board with irqCounter := board.irqLatch, irqReload := false }
  else { board with irqCounter := board.irqCounter - 1 }

/-- Whether a line is counted when it is rendered. -/
def counted (line : Nat) : Bool := line < visibleLines || line == preRenderLine

/-- The end of a line. A counter that reaches zero raises the IRQ, if enabled. -/
def hblank (board : Mmc3) (line : Nat) (slot : Slot) : Mmc3 × Slot :=
  if counted line && slot.ppu.rendering then
    let board := board.countLine
    (board, if board.irqCounter = 0 && board.irqEnabled then slot.setIrq true else slot)
  else (board, slot)

end Mmc3
end Nes
