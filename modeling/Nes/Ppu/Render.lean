/-
  Drawing a scanline: background tiles, the prepared sprite pixels, and the status flags that
  the CPU can see whether or not the line is shown.
-/
import Nes.Ppu.Sprites

namespace Nes

/-- Pixels row by row, each a colour as `packRgb` makes it. -/
abbrev Picture := Array UInt32

namespace Picture

/-- A picture of the screen's size. -/
def blank : Picture := Array.replicate (screenWidth * screenHeight) 0

/-- Where the row of a line starts, if the line is shown and its row fits in. -/
def rowStart? (picture : Picture) (line : Nat) : Option Nat :=
  let row := line - firstShownLine
  if firstShownLine ≤ line ∧ row < screenHeight ∧ (row + 1) * screenWidth ≤ picture.size then
    some (row * screenWidth)
  else none

/-- Sets `count` pixels from pixel `start` on, which show the columns from `x` on. -/
@[specialize] def paint (picture : Picture) (start x : Nat) (color : Nat → UInt32) :
    (count : Nat) → Picture
  | 0 => picture
  | count + 1 => paint (picture.setIfInBounds (start + x) (color x)) start (x + 1) color count

end Picture

/-- One row of a background tile. -/
structure TileRow where
  lo : UInt8
  hi : UInt8
  palette : UInt8

namespace TileRow

/-- The palette entry in a column of the tile; zero where it is transparent. -/
@[inline] def entry (tile : TileRow) (col : Nat) : UInt8 :=
  let color := patternColor tile.lo tile.hi (7 - col)
  if color = 0 then 0 else tile.palette * 4 + color

/-- Appends the palette entries of all eight columns. -/
def entries (tile : TileRow) (out : Array UInt8) : Array UInt8 :=
  out |>.push (tile.entry 0) |>.push (tile.entry 1) |>.push (tile.entry 2)
    |>.push (tile.entry 3) |>.push (tile.entry 4) |>.push (tile.entry 5)
    |>.push (tile.entry 6) |>.push (tile.entry 7)

end TileRow

/-- What is needed to draw one line. -/
structure LineView where
  mask : Mask
  /-- Column of the first tile that is shown at the left edge. -/
  fineX : Nat
  /-- Background palette entries, from the left edge of the first tile on. -/
  background : Array UInt8
  sprites : Vector (Option SpriteDot) 256

namespace LineView

/-- The visible background entry in column `x`. -/
@[inline] def backgroundAt (view : LineView) (x : Nat) : UInt8 :=
  if view.mask.backgroundAt x then view.background.getD (view.fineX + x) 0 else 0

/-- The visible sprite pixel in column `x`. -/
@[inline] def spriteAt (view : LineView) (x : Nat) : Option SpriteDot :=
  if view.mask.spritesAt x then view.sprites.toArray.getD x none else none

/-- The palette entry shown in column `x`: a sprite pixel wins over a transparent background,
    and over any other unless it is behind it. -/
def entryAt (view : LineView) (x : Nat) : UInt8 :=
  let background := view.backgroundAt x
  match view.spriteAt x with
  | some dot => if background = 0 || !dot.behind then 0x10 + dot.entry else background
  | none => background

/-- Whether the first sprite meets the background in column `x`. -/
def hitAt (view : LineView) (x : Nat) : Bool :=
  match view.spriteAt x with
  | some dot => dot.first && view.backgroundAt x != 0
  | none => false

/-- Whether there is a hit in one of `count` columns from `x` on. -/
def hitIn (view : LineView) (x : Nat) : (count : Nat) → Bool
  | 0 => false
  | count + 1 => view.hitAt x || hitIn view (x + 1) count

/-- Whether the first sprite meets the background on this line. The last column does not
    count. -/
def hit (view : LineView) : Bool := view.hitIn 0 255

end LineView

namespace Ppu

/-- Reads the tile row that the scroll address is at. -/
def tileRow (ppu : Ppu) (v : VideoAddress) : TileRow :=
  let tile := (ppu.readByte v.tileAddress).toNat
  let attr := ppu.readByte v.attributeAddress
  let addr := ppu.control.backgroundPatterns + tile * 16 + v.fineY
  { lo := ppu.readByte addr
    hi := ppu.readByte (addr + 8)
    palette := UInt8.ofNat ((attr.toNat >>> v.attributeShift) % 4) }

/-- The palette entries of `count` tiles from an address on. -/
def backgroundFrom (ppu : Ppu) (v : VideoAddress) (out : Array UInt8) :
    (count : Nat) → Array UInt8
  | 0 => out
  | count + 1 => backgroundFrom ppu v.nextTile ((ppu.tileRow v).entries out) count

/-- Tiles that cover a line, whatever column it starts in. -/
def tilesPerLine : Nat := 33

/-- The line at the current scroll address. -/
def lineView (ppu : Ppu) : LineView where
  mask := ppu.mask
  fineX := ppu.scroll.fineX
  background := ppu.backgroundFrom ppu.scroll.v (Array.mkEmpty (8 * tilesPerLine)) tilesPerLine
  sprites := ppu.sprites.cells

/-- The colour of a palette entry. -/
@[inline] def inkOf (ppu : Ppu) (entry : UInt8) : UInt32 :=
  ppu.colors.color ppu.mask.greyscale (ppu.memory.palette.toArray.getD entry.toNat 0)

/-- Whether this line can still set the hit flag. -/
def canHit (ppu : Ppu) : Bool :=
  ppu.sprites.hasFirst && ppu.mask.background && ppu.mask.sprites && !ppu.status.zeroHit

/-- Draws the current line into the row at `start`, if there is one, and finds out whether the
    first sprite is hit. -/
def drawLine (ppu : Ppu) (picture : Option Picture) (start : Option Nat) :
    Option Picture × Ppu :=
  if start.isNone && !ppu.canHit then (picture, ppu)
  else
    let view := ppu.lineView
    let picture := match start with
      | some start =>
        let ink := fun x => ppu.inkOf (view.entryAt x)
        picture.map fun picture => picture.paint start 0 ink screenWidth
      | none => picture
    let zeroHit := ppu.status.zeroHit || view.hit
    (picture, { ppu with status := { ppu.status with zeroHit } })

/-- Renders a visible line into a picture, or without one. What the CPU can see is the same
    either way: scroll address, hit and overflow. -/
def renderScanline (ppu : Ppu) (line : Nat) (picture : Option Picture) : Option Picture × Ppu :=
  if visibleLines ≤ line then (picture, ppu)
  else
    let start := picture.bind (·.rowStart? line)
    if ppu.rendering then
      let (picture, ppu) := ppu.drawLine picture start
      let ppu := { ppu with scroll := { ppu.scroll with v := ppu.scroll.v.nextRow } }
      (picture, ppu.evaluateSprites line)
    else
      let picture := match start with
        | some start =>
          let backdrop := ppu.inkOf 0
          picture.map fun picture => picture.paint start 0 (fun _ => backdrop) screenWidth
        | none => picture
      (picture, { ppu with sprites := {} })

/-- What happens at the start of a line: the scroll address goes back to where the picture, or
    the row, starts, and the vertical blank begins and ends. -/
def preRender (ppu : Ppu) (line : Nat) : Ppu :=
  if line = 0 then
    if ppu.rendering then { ppu with scroll := { ppu.scroll with v := ppu.scroll.t } } else ppu
  else if line < visibleLines then
    if ppu.rendering then
      { ppu with scroll := { ppu.scroll with v := ppu.scroll.v.toColumnOf ppu.scroll.t } }
    else ppu
  else if line = vblankLine then
    { ppu with
      status := { ppu.status with vblank := true }
      nmiLatch := ppu.nmiLatch || ppu.control.nmi }
  else if line = preRenderLine then { ppu with status := {}, sprites := {} }
  else ppu

end Ppu
end Nes
