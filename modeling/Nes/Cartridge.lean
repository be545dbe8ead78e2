/-
  A cartridge: the image, the board with its registers, and save RAM.
-/
import Nes.Board.Basic
import Nes.Save.Ram

namespace Nes

/-- A cartridge in the console. -/
structure Cartridge where
  image : Image
  board : Board
  /-- The board as it was built; every reset starts from it. -/
  pristine : Board
  save : SaveRam
  /-- The IRQ line as the board drives it. -/
  irq : Bool
deriving Inhabited

namespace Cartridge

/-- Where a trainer is put in save RAM; the CPU sees it at $7000. -/
def trainerOffset : Nat := 0x1000

/-- A new cartridge. -/
def ofImage (image : Image) (board : Board) : Cartridge where
  image := image
  board := board
  pristine := board
  save := match image.trainer with
    | some trainer => SaveRam.blank.loadAt trainerOffset trainer
    | none => SaveRam.blank
  irq := false

/-- Reads an image and builds its board: the one with number `id`, if given, or else the one
    the header names. -/
def load (registry : Registry) (bytes : Bytes) (id : Option UInt16) :
    Except LoadError Cartridge := do
  let image ← Image.parse bytes
  let board ← registry.build (id.getD image.header.mapper)
  return ofImage image board

/-- Whether a battery keeps the save RAM. -/
@[inline] def battery (cartridge : Cartridge) : Bool := cartridge.image.header.battery

/-- The byte at an offset into PRG ROM. -/
@[inline] def prgByte? (cartridge : Cartridge) (offset : Nat) : Option UInt8 :=
  cartridge.image.prg[offset]?

end Cartridge
end Nes
