/-
  The PPU's control, mask and status registers, by what their bits mean.
-/
import Nes.Word

namespace Nes

/-- The eight registers the CPU sees. -/
inductive PpuRegister
  | control
  | mask
  | status
  | oamAddress
  | oamData
  | scroll
  | address
  | data
deriving DecidableEq, Inhabited

/-- The register at an offset into the PPU's window; the low three bits select it. -/
def PpuRegister.ofOffset (offset : Nat) : PpuRegister :=
  match offset % 8 with
  | 0 => control
  | 1 => mask
  | 2 => status
  | 3 => oamAddress
  | 4 => oamData
  | 5 => scroll
  | 6 => address
  | _ => data

/-- $2000, except for the nametable bits, which go into the scroll registers. -/
structure Control where
  /-- Accesses to $2007 move down a row and not to the right. -/
  rowStep : Bool := false
  /-- Small sprites are taken from the second pattern table. -/
  spriteTable : Bool := false
  /-- The background is taken from the second pattern table. -/
  backgroundTable : Bool := false
  /-- Sprites are 16 pixels high. -/
  tallSprites : Bool := false
  /-- The vertical blank raises an NMI. -/
  nmi : Bool := false
deriving DecidableEq, Inhabited

namespace Control

def ofByte (b : UInt8) : Control where
  rowStep := bit b 2
  spriteTable := bit b 3
  backgroundTable := bit b 4
  tallSprites := bit b 5
  nmi := bit b 7

/-- How far an access to $2007 moves. -/
def step (c : Control) : Nat := if c.rowStep then 32 else 1

/-- Start of the pattern table for small sprites. -/
def spritePatterns (c : Control) : Nat := if c.spriteTable then 0x1000 else 0

/-- Start of the pattern table for the background. -/
def backgroundPatterns (c : Control) : Nat := if c.backgroundTable then 0x1000 else 0

/-- Height of a sprite in pixels. -/
def spriteHeight (c : Control) : Nat := if c.tallSprites then 16 else 8

end Control

/-- Which colour channels are emphasized. -/
structure Emphasis where
  red : Bool := false
  green : Bool := false
  blue : Bool := false
deriving DecidableEq, Inhabited

/-- $2001. -/
structure Mask where
  greyscale : Bool := false
  /-- Shows the background in the leftmost eight columns. -/
  backgroundLeft : Bool := false
  /-- Shows sprites in the leftmost eight columns. -/
  spritesLeft : Bool := false
  background : Bool := false
  sprites : Bool := false
  emphasis : Emphasis := {}
deriving DecidableEq, Inhabited

namespace Mask

def ofByte (b : UInt8) : Mask where
  greyscale := bit b 0
  backgroundLeft := bit b 1
  spritesLeft := bit b 2
  background := bit b 3
  sprites := bit b 4
  emphasis := { red := bit b 5, green := bit b 6, blue := bit b 7 }

/-- Whether anything is drawn. -/
@[inline] def rendering (m : Mask) : Bool := m.background || m.sprites

/-- Whether the background is visible in column `x`. -/
@[inline] def backgroundAt (m : Mask) (x : Nat) : Bool :=
  m.background && (8 ≤ x || m.backgroundLeft)

/-- Whether sprites are visible in column `x`. -/
@[inline] def spritesAt (m : Mask) (x : Nat) : Bool := m.sprites && (8 ≤ x || m.spritesLeft)

end Mask

/-- $2002. -/
structure PpuStatus where
  /-- More than eight sprites were on a line. -/
  overflow : Bool := false
  /-- The first sprite met the background. -/
  zeroHit : Bool := false
  vblank : Bool := false
deriving DecidableEq, Inhabited

/-- The flags in the top three bits; `below` fills the others. -/
def PpuStatus.toByte (s : PpuStatus) (below : UInt8) : UInt8 :=
  (if s.vblank then 0x80 else 0) ||| (if s.zeroHit then 0x40 else 0) |||
    (if s.overflow then 0x20 else 0) ||| (below &&& 0x1F)

end Nes
