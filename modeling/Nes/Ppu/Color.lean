/-
  Colours on the screen: the master palette with emphasis and greyscale applied.
-/
import Nes.Ppu.Registers

namespace Nes

/-- A colour as a number: alpha, blue, green and red from the top byte down. -/
def packRgb (r g b : UInt8) : UInt32 :=
  0xFF000000 + b.toUInt32 * 0x10000 + g.toUInt32 * 0x100 + r.toUInt32

/-- Red, green and blue of the 64 colours. -/
def masterPalette : Vector (UInt8 × UInt8 × UInt8) 64 := #v[
  (124, 124, 124), (0, 0, 252), (0, 0, 188), (68, 40, 188), (148, 0, 132), (168, 0, 32),
  (168, 16, 0), (136, 20, 0), (80, 48, 0), (0, 120, 0), (0, 104, 0), (0, 88, 0), (0, 64, 88),
  (0, 0, 0), (0, 0, 0), (0, 0, 0), (188, 188, 188), (0, 120, 248), (0, 88, 248), (104, 68, 252),
  (216, 0, 204), (228, 0, 88), (248, 56, 0), (228, 92, 16), (172, 124, 0), (0, 184, 0),
  (0, 168, 0), (0, 168, 68), (0, 136, 136), (0, 0, 0), (0, 0, 0), (0, 0, 0), (248, 248, 248),
  (60, 188, 252), (104, 136, 252), (152, 120, 248), (248, 120, 248), (248, 88, 152),
  (248, 120, 88), (252, 160, 68), (248, 184, 0), (184, 248, 24), (88, 216, 84), (88, 248, 152),
  (0, 232, 216), (120, 120, 120), (0, 0, 0), (0, 0, 0), (252, 252, 252), (164, 228, 252),
  (184, 184, 248), (216, 184, 248), (248, 184, 248), (248, 164, 192), (240, 208, 176),
  (252, 224, 168), (248, 216, 120), (216, 248, 120), (184, 248, 184), (184, 248, 216),
  (0, 252, 252), (248, 216, 248), (0, 0, 0), (0, 0, 0)]

/-- Emphasis halves every channel and lifts the emphasized ones. -/
def tint (channel : UInt8) (emphasized : Bool) : UInt8 :=
  if emphasized then channel / 2 + 128 else channel / 2

namespace Emphasis

/-- One colour under emphasis. Without any, colours are plain. -/
def apply (e : Emphasis) (rgb : UInt8 × UInt8 × UInt8) : UInt32 :=
  let (r, g, b) := rgb
  if e = {} then packRgb r g b else packRgb (tint r e.red) (tint g e.green) (tint b e.blue)

/-- All colours under emphasis. -/
def colors (e : Emphasis) : Vector UInt32 64 := masterPalette.map e.apply

end Emphasis

/-- The colours for the current emphasis, computed again only when it changes. -/
structure ColorTable where
  emphasis : Emphasis := {}
  colors : Vector UInt32 64 := Emphasis.colors {}

namespace ColorTable

instance : Inhabited ColorTable := ⟨{}⟩

/-- Follows the emphasis bits of the mask. -/
def update (table : ColorTable) (emphasis : Emphasis) : ColorTable :=
  if emphasis = table.emphasis then table else { emphasis, colors := emphasis.colors }

/-- The colour of a palette byte; greyscale leaves only its brightness. -/
@[inline] def color (table : ColorTable) (greyscale : Bool) (entry : UInt8) : UInt32 :=
  let i := entry.toNat
  table.colors.get (wrap (if greyscale then i / 16 * 16 else i))

end ColorTable
end Nes
