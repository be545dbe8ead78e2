/-
  Sprite evaluation: which sprites show on a line, and the pixels they put there.

  A sprite's Y byte is the line before its first row, so the sprites found for a line are those
  drawn on the next one. Among overlapping sprites the one of lower index wins, whatever their
  priorities against the background are.
-/
import Nes.Ppu.Basic

namespace Nes

/-- One sprite. -/
structure Sprite where
  y : UInt8
  tile : UInt8
  /-- Palette (bits 0-1), behind the background (5), flipped sideways (6), upside down (7). -/
  attributes : UInt8
  x : UInt8
deriving DecidableEq, Inhabited

namespace Sprite

/-- Whether the sprite shows on the line after `line`. -/
def onLine (s : Sprite) (height line : Nat) : Bool :=
  s.y.toNat ≤ line && line < s.y.toNat + height

/-- The row of the sprite's pattern that shows. -/
def patternRow (s : Sprite) (height line : Nat) : Nat :=
  let row := line - s.y.toNat
  if bit s.attributes 7 then height - 1 - row else row

/-- Address of the low bits of a pattern row. Tall sprites take their table from the low bit of
    the tile number. -/
def patternAddress (s : Sprite) (control : Control) (row : Nat) : Nat :=
  let tile := s.tile.toNat
  if control.tallSprites then
    tile % 2 * 0x1000 + (tile / 2 * 2 + row / 8) * 16 + row % 8
  else control.spritePatterns + tile * 16 + row

/-- The bit of a pattern row that shows in column `col` of the sprite. -/
def patternBit (s : Sprite) (col : Nat) : Nat := if bit s.attributes 6 then col else 7 - col

end Sprite

/-- The two-bit colour at a bit position of a pattern row. -/
@[inline] def patternColor (lo hi : UInt8) (position : Nat) : UInt8 :=
  (if bit hi position then 2 else 0) + (if bit lo position then 1 else 0)

namespace SpriteLine

/-- Puts a dot into an empty cell. Columns past the edge of the screen are not there. -/
def place (line : SpriteLine) (x : Nat) (dot : SpriteDot) : SpriteLine :=
  if h : x < 256 then
    match line.cells[x] with
    | some _ => line
    | none => { cells := line.cells.set x (some dot), hasFirst := line.hasFirst || dot.first }
  else line

/-- Puts the opaque pixels of `count` columns of a sprite, from column `col` on, into the
    line. -/
def placeColumns (line : SpriteLine) (s : Sprite) (first : Bool) (lo hi : UInt8) (col : Nat) :
    (count : Nat) → SpriteLine
  | 0 => line
  | count + 1 =>
    let color := patternColor lo hi (s.patternBit col)
    let line :=
      if color = 0 then line
      else line.place (s.x.toNat + col)
        { entry := (s.attributes &&& 3) * 4 + color, behind := bit s.attributes 5, first }
    placeColumns line s first lo hi (col + 1) count

end SpriteLine

namespace Ppu

/-- Most sprites on one line. -/
def spritesPerLine : Nat := 8

/-- Sprite number `i` in sprite memory. -/
def sprite (ppu : Ppu) (i : Fin 64) : Sprite where
  y := ppu.oam[4 * i.val]
  tile := ppu.oam[4 * i.val + 1]
  attributes := ppu.oam[4 * i.val + 2]
  x := ppu.oam[4 * i.val + 3]

/-- The numbers of the sprites in range of a line. -/
def spritesOn (ppu : Ppu) (line : Nat) : List (Fin 64) :=
  (List.finRange 64).filter fun i => (ppu.sprite i).onLine ppu.control.spriteHeight line

/-- Puts one sprite into a line. -/
def placeSprite (ppu : Ppu) (line : Nat) (cells : SpriteLine) (i : Fin 64) : SpriteLine :=
  let s := ppu.sprite i
  let addr := s.patternAddress ppu.control (s.patternRow ppu.control.spriteHeight line)
  cells.placeColumns s (i == 0) (ppu.readByte addr) (ppu.readByte (addr + 8)) 0 8

/-- Prepares the sprite pixels of the line after `line`. The first eight sprites in range are
    drawn; a ninth sets the overflow flag. -/
def evaluateSprites (ppu : Ppu) (line : Nat) : Ppu :=
  let found := ppu.spritesOn line
  let sprites := (found.take spritesPerLine).foldl (ppu.placeSprite line) {}
  let overflow := ppu.status.overflow || spritesPerLine < found.length
  { ppu with sprites, status := { ppu.status with overflow } }

end Ppu
end Nes
