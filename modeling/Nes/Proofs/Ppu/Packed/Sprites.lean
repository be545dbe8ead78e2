/-
  Sprite evaluation, with every index and every result looked at.

  A `PackedPpu` is the chip as it is wired: the scroll registers are numbers, and the prepared line
  has a byte for every column, zero where there is no dot. `evaluateSprites?` goes through the
  sprites one by one, counts those it finds and stops at the ninth. Its every addition,
  multiplication, subtraction and shift is checked, and so is every access to sprite memory, to the
  pattern tables and to the line; only the distance of a line from a sprite may wrap, and is then
  out of range.

  On packed state it never fails, and gives the packed state that the plain function gives
  (`evaluateSprites?_eq`).
-/
import Nes.Proofs.Ppu.Packed.Memory
import Nes.Proofs.Ppu.Packed.Scroll
import Nes.Proofs.Ppu.SpriteCells

namespace Nes

open Checked

/-! ## The state of the chip -/

/-- The sprite pixels of the next line, a byte each. -/
structure PackedLine where
  pixels : Vector UInt8 256 := Vector.replicate 256 0
  /-- The first sprite has a pixel among them. -/
  hasFirst : Bool := false

/-- The line as bytes. -/
def SpriteLine.pack (line : SpriteLine) : PackedLine where
  pixels := line.cells.map cellByte
  hasFirst := line.hasFirst

/-- The picture processing unit, with scroll registers and sprite pixels as numbers. -/
structure PackedPpu where
  control : Control := {}
  mask : Mask := {}
  status : PpuStatus := {}
  oamAddress : UInt8 := 0
  scroll : PackedScroll := {}
  readBuffer : UInt8 := 0
  latch : UInt8 := 0
  memory : VideoMemory := {}
  oam : Vector UInt8 256 := Vector.replicate 256 0
  sprites : PackedLine := {}
  colors : ColorTable := {}
  nmiLatch : Bool := false
  chrWritable : Bool := true

/-- The chip with scroll registers and sprite pixels as numbers. -/
def Ppu.pack (ppu : Ppu) : PackedPpu where
  control := ppu.control
  mask := ppu.mask
  status := ppu.status
  oamAddress := ppu.oamAddress
  scroll := ppu.scroll.pack
  readBuffer := ppu.readBuffer
  latch := ppu.latch
  memory := ppu.memory
  oam := ppu.oam
  sprites := ppu.sprites.pack
  colors := ppu.colors
  nmiLatch := ppu.nmiLatch
  chrWritable := ppu.chrWritable

theorem SpriteLine.pack_empty : ({} : SpriteLine).pack = {} := by
  have hpixels : (Vector.replicate 256 (none : Option SpriteDot)).map cellByte =
      Vector.replicate 256 0 := Vector.map_replicate
  unfold pack
  rw [hpixels]

theorem SpriteLine.getElem?_pack (line : SpriteLine) {x : Nat} (h : x < 256) :
    line.pack.pixels[x]? = some (cellByte line.cells[x]) := by
  unfold pack
  rw [Vector.getElem?_eq_getElem h, Vector.getElem_map]

/-! ## Pixels -/

/-- `patternColor`, checked: a bit is shifted to the right end of its byte. -/
def patternColor? (lo hi : UInt8) (position : Nat) : Option UInt8 := do
  let hi ← shiftRight? 8 hi.toNat position
  let lo ← shiftRight? 8 lo.toNat position
  return UInt8.ofNat (hi % 2 * 2 + lo % 2)

theorem patternColor?_eq (lo hi : UInt8) {position : Nat} (h : position < 8) :
    patternColor? lo hi position = some (patternColor lo hi position) := by
  have hbit (byte : UInt8) : byte.toNat >>> position % 2 = (bit byte position).toNat := by
    rw [Nat.shiftRight_eq_div_pow]
    exact (Nat.toNat_testBit byte.toNat position).symm
  have hcolor : UInt8.ofNat (hi.toNat >>> position % 2 * 2 + lo.toNat >>> position % 2) =
      patternColor lo hi position := by
    rw [hbit, hbit]
    unfold patternColor
    cases bit hi position <;> cases bit lo position <;> rfl
  unfold patternColor?
  rw [shiftRight?_eq h, shiftRight?_eq h]
  exact congrArg some hcolor

/-- What the pixels of a sprite have in common: palette, present, behind, first. -/
def spriteCell (attributes : UInt8) (first : Bool) : UInt8 :=
  ((attributes &&& 3) <<< 2) ||| 0x80 ||| (if bit attributes 5 then 0x40 else 0) |||
    (if first then 0x20 else 0)

/-- A palette number and a colour side by side in four bits. -/
theorem shiftLeft_or_color {palette color : UInt8} (hpalette : palette.toNat < 4)
    (hcolor : color.toNat < 4) : (palette <<< 2) ||| color = palette * 4 + color := by
  have hshift : (palette <<< 2).toNat = 2 ^ 2 * palette.toNat := by
    have hword : (palette <<< 2).toNat = palette.toNat <<< 2 % 2 ^ 8 :=
      UInt8.toNat_shiftLeft palette 2
    rw [hword, Nat.shiftLeft_eq, Nat.mul_comm]
    exact Nat.mod_eq_of_lt (by omega)
  apply UInt8.toNat_inj.mp
  rw [toNat_palette_color hpalette hcolor, UInt8.toNat_or, hshift, Nat.mul_comm palette.toNat]
  exact (Nat.two_pow_add_eq_or_of_lt hcolor palette.toNat).symm

/-- With a colour in the lowest two bits, that is the byte of a dot. -/
theorem spriteCell_or_color (attributes : UInt8) (first : Bool) {color : UInt8}
    (h : color.toNat < 4) :
    spriteCell attributes first ||| color = SpriteDot.toByte
      { entry := (attributes &&& 3) * 4 + color, behind := bit attributes 5, first } := by
  unfold spriteCell SpriteDot.toByte
  rw [← shiftLeft_or_color (spritePalette_lt attributes) h]
  dsimp only
  ac_rfl

/-- Bit 7 of a cell tells whether there is a dot. -/
theorem bit_present (cell : Option SpriteDot) : bit (cellByte cell) 7 = cell.isSome := by
  cases cell with
  | none => rfl
  | some dot =>
    show (SpriteDot.toByte dot).toNat.testBit 7 = true
    unfold SpriteDot.toByte
    simp only [UInt8.toNat_or, Nat.testBit_or]
    rfl

/-! ## Where the bits of a sprite are -/

namespace Sprite

/-- The row of the pattern for the row `row` of the sprite. -/
def patternRow? (s : Sprite) (height row : Nat) : Option Nat :=
  if bit s.attributes 7 then do
    let last ← sub? height 1
    sub? last row
  else some row

/-- `patternAddress`, checked. -/
def patternAddress? (s : Sprite) (control : Control) (row : Nat) : Option Nat :=
  if control.tallSprites then do
    let table ← mul? wordTop (s.tile.toNat % 2) 0x1000
    let tile ← add? wordTop (s.tile.toNat / 2 * 2) (row / 8)
    let plane ← mul? wordTop tile 16
    let start ← add? wordTop table plane
    add? wordTop start (row % 8)
  else do
    let plane ← mul? wordTop s.tile.toNat 16
    let start ← add? wordTop control.spritePatterns plane
    add? wordTop start row

/-- `patternBit`, checked. -/
def patternBit? (s : Sprite) (col : Nat) : Option Nat :=
  if bit s.attributes 6 then some col else sub? 7 col

variable (s : Sprite)

theorem patternRow?_eq {height line : Nat} (h : line - s.y.toNat < height) :
    s.patternRow? height (line - s.y.toNat) = some (s.patternRow height line) := by
  unfold patternRow? patternRow
  dsimp only
  split
  · exact (bind_some (sub?_eq (by omega))).trans (sub?_eq (by omega))
  · rfl

theorem patternRow_lt {height line : Nat} (h : line - s.y.toNat < height) :
    s.patternRow height line < height := by
  unfold patternRow
  dsimp only
  split <;> omega

theorem patternAddress?_eq (control : Control) {row : Nat} (h : row < 16) :
    s.patternAddress? control row = some (s.patternAddress control row) := by
  have htile := s.tile.toNat_lt
  unfold patternAddress? patternAddress
  dsimp only
  generalize s.tile.toNat = tile at htile ⊢
  split
  · have hbit : tile % 2 ≤ 1 := by omega
    have hshown : tile / 2 * 2 + row / 8 ≤ 0x100 := by omega
    have hlast : row % 8 ≤ 7 := by omega
    have htable : tile % 2 * 0x1000 ≤ 0x1000 := Nat.mul_le_mul_right 0x1000 hbit
    have hplane : (tile / 2 * 2 + row / 8) * 16 ≤ 0x1000 := Nat.mul_le_mul_right 16 hshown
    have hstart := Nat.add_le_add htable hplane
    have hrow := Nat.add_le_add hstart hlast
    simp only [mul?_eq (Nat.le_trans htable (by decide : _ ≤ wordTop)),
      add?_eq (Nat.le_trans hshown (by decide : _ ≤ wordTop)),
      mul?_eq (Nat.le_trans hplane (by decide : _ ≤ wordTop)),
      add?_eq (Nat.le_trans hstart (by decide : _ ≤ wordTop)),
      add?_eq (Nat.le_trans hrow (by decide : _ ≤ wordTop)), Option.bind_eq_bind,
      Option.bind_some]
  · have htable : control.spritePatterns ≤ 0x1000 := by
      unfold Control.spritePatterns
      split <;> decide
    have hplane : tile * 16 ≤ wordTop := by unfold wordTop; omega
    have hstart : control.spritePatterns + tile * 16 ≤ wordTop := by unfold wordTop; omega
    have hrow : control.spritePatterns + tile * 16 + row ≤ wordTop := by unfold wordTop; omega
    simp only [mul?_eq hplane, add?_eq hstart, add?_eq hrow, Option.bind_eq_bind,
      Option.bind_some]

theorem patternAddress_le (control : Control) {row : Nat} (h : row < 16) :
    s.patternAddress control row ≤ 0x3000 := by
  have := s.tile.toNat_lt
  unfold patternAddress Control.spritePatterns
  dsimp only
  split
  · omega
  · split <;> omega

theorem patternBit?_eq {col : Nat} (h : col < 8) :
    s.patternBit? col = some (s.patternBit col) := by
  unfold patternBit? patternBit
  split
  · rfl
  · exact sub?_eq (by omega)

theorem patternBit_lt {col : Nat} (h : col < 8) : s.patternBit col < 8 := by
  unfold patternBit
  split <;> omega

end Sprite

theorem Control.spriteHeight_le (control : Control) : control.spriteHeight ≤ 16 := by
  unfold spriteHeight
  split <;> decide

/-! ## Putting a sprite into the line -/

namespace PackedLine

/-- `SpriteLine.place`, checked. -/
def place? (line : PackedLine) (x : Nat) (dot : UInt8) (first : Bool) : Option PackedLine := do
  let old ← line.pixels[x]?
  if bit old 7 then return line
  else do
    let pixels ← set? line.pixels x dot
    return { pixels, hasFirst := line.hasFirst || first }

/-- One column of a sprite. Columns that are transparent or past the edge of the screen are left
    out. -/
def placeColumn? (line : PackedLine) (s : Sprite) (first : Bool) (lo hi : UInt8) (col : Nat) :
    Option PackedLine := do
  let position ← s.patternBit? col
  let color ← patternColor? lo hi position
  let x ← add? longTop s.x.toNat col
  if color = 0 ∨ screenWidth ≤ x then return line
  else line.place? x (spriteCell s.attributes first ||| color) first

/-- `SpriteLine.placeColumns`, checked. -/
def placeColumns? (line : PackedLine) (s : Sprite) (first : Bool) (lo hi : UInt8) (col : Nat) :
    (count : Nat) → Option PackedLine
  | 0 => some line
  | count + 1 => do
    let line ← line.placeColumn? s first lo hi col
    placeColumns? line s first lo hi (col + 1) count

/-- `Ppu.placeSprite`, checked, for a sprite of which the row `row` is on the line. -/
def placeSprite? (line : PackedLine) (control : Control) (memory : VideoMemory) (s : Sprite)
    (first : Bool) (row : Nat) : Option PackedLine := do
  let row ← s.patternRow? control.spriteHeight row
  let addr ← s.patternAddress? control row
  let lo ← memory.read? addr
  let above ← add? wordTop addr 8
  let hi ← memory.read? above
  placeColumns? line s first lo hi 0 8

end PackedLine

namespace SpriteLine

theorem place?_eq (line : SpriteLine) {x : Nat} (h : x < 256) (dot : SpriteDot) :
    line.pack.place? x dot.toByte dot.first = some (line.place x dot).pack := by
  unfold PackedLine.place? place
  rw [dif_pos h, line.getElem?_pack h]
  refine (bind_some rfl).trans ?_
  rw [bit_present]
  cases line.cells[x] with
  | some old => rfl
  | none =>
    refine (bind_some (set?_eq line.pack.pixels h _)).trans (congrArg some ?_)
    unfold pack
    dsimp only
    rw [Vector.map_set]
    rfl

theorem placeColumn?_eq (line : SpriteLine) (s : Sprite) (first : Bool) (lo hi : UInt8) {col : Nat}
    (h : col < 8) :
    line.pack.placeColumn? s first lo hi col =
      some (line.placeColumns s first lo hi col 1).pack := by
  have hx : s.x.toNat + col ≤ longTop := by
    have := s.x.toNat_lt
    unfold longTop
    omega
  have hfew := patternColor_lt lo hi (s.patternBit col)
  unfold PackedLine.placeColumn? placeColumns placeColumns
  dsimp only
  refine (bind_some (s.patternBit?_eq h)).trans ?_
  refine (bind_some (patternColor?_eq lo hi (s.patternBit_lt h))).trans ?_
  refine (bind_some (add?_eq hx)).trans ?_
  by_cases transparent : patternColor lo hi (s.patternBit col) = 0
  · rw [if_pos (.inl transparent), if_pos transparent]
    rfl
  · rw [if_neg transparent]
    by_cases outside : screenWidth ≤ s.x.toNat + col
    · rw [if_pos (.inr outside)]
      have hkept (dot : SpriteDot) : line.place (s.x.toNat + col) dot = line :=
        dif_neg (Nat.not_lt.mpr outside)
      rw [hkept]
      rfl
    · rw [if_neg (not_or.mpr ⟨transparent, outside⟩), spriteCell_or_color _ _ hfew]
      exact place?_eq line (Nat.lt_of_not_le outside) _

theorem placeColumns?_eq (line : SpriteLine) (s : Sprite) (first : Bool) (lo hi : UInt8)
    {col count : Nat} (h : col + count ≤ 8) :
    line.pack.placeColumns? s first lo hi col count =
      some (line.placeColumns s first lo hi col count).pack := by
  induction count generalizing line col with
  | zero => rfl
  | succ count ih =>
    refine (bind_some (placeColumn?_eq line s first lo hi (by omega))).trans ?_
    exact ih _ (by omega)

end SpriteLine

namespace Ppu

theorem placeSprite?_eq (ppu : Ppu) (line : Nat) (cells : SpriteLine) {i : Fin 64}
    (h : ppu.InRange line i) :
    cells.pack.placeSprite? ppu.control ppu.memory (ppu.sprite i) (i.val == 0)
      (line - (ppu.sprite i).y.toNat) = some (ppu.placeSprite line cells i).pack := by
  have hrow : (ppu.sprite i).patternRow ppu.control.spriteHeight line < 16 :=
    Nat.lt_of_lt_of_le (Sprite.patternRow_lt _ (inRange_iff.mp h).2) ppu.control.spriteHeight_le
  have haddr := (ppu.sprite i).patternAddress_le ppu.control hrow
  unfold placeSprite
  rw [isFirst_eq]
  refine (bind_some (Sprite.patternRow?_eq _ (inRange_iff.mp h).2)).trans ?_
  refine (bind_some (Sprite.patternAddress?_eq _ ppu.control hrow)).trans ?_
  refine (bind_some (ppu.memory.read?_eq _)).trans ?_
  refine (bind_some (add?_eq (by unfold wordTop; omega))).trans ?_
  refine (bind_some (ppu.memory.read?_eq _)).trans ?_
  exact SpriteLine.placeColumns?_eq cells (ppu.sprite i) (i.val == 0) _ _ (by decide)

end Ppu

/-! ## Going through the sprites -/

/-- Byte `offset` of sprite number `i` in sprite memory. -/
def spriteByte? (oam : Vector UInt8 256) (i offset : Nat) : Option UInt8 := do
  let base ← mul? longTop 4 i
  let position ← add? longTop base offset
  oam[position]?

/-- Sprite number `i` in sprite memory. -/
def spriteOf? (oam : Vector UInt8 256) (i : Nat) : Option Sprite := do
  let y ← spriteByte? oam i 0
  let tile ← spriteByte? oam i 1
  let attributes ← spriteByte? oam i 2
  let x ← spriteByte? oam i 3
  return { y, tile, attributes, x }

namespace PackedPpu

/-- Looks at the sprites of a list, `found` of which were in range before. -/
def evaluateEach? (ppu : PackedPpu) (line found : Nat) : List (Fin 64) → Option PackedPpu
  | [] => some ppu
  | i :: rest => do
    let s ← spriteOf? ppu.oam i
    let row := (line + 0x10000 - s.y.toNat) % 0x10000
    if ppu.control.spriteHeight ≤ row then evaluateEach? ppu line found rest
    else if found = Ppu.spritesPerLine then
      return { ppu with status := { ppu.status with overflow := true } }
    else do
      let more ← add? longTop found 1
      let sprites ← ppu.sprites.placeSprite? ppu.control ppu.memory s (i.val == 0) row
      evaluateEach? { ppu with sprites } line more rest

/-- `Ppu.evaluateSprites`, checked. -/
def evaluateSprites? (ppu : PackedPpu) (line : Nat) : Option PackedPpu :=
  evaluateEach? { ppu with sprites := {} } line 0 (List.finRange 64)

end PackedPpu

namespace Ppu

theorem spriteByte?_eq (oam : Vector UInt8 256) (i : Fin 64) {offset : Nat} (h : offset < 4) :
    spriteByte? oam i offset = some (oam.get ⟨4 * i.val + offset, by omega⟩) := by
  have hi := i.isLt
  have hbase : 4 * i.val ≤ longTop := by
    unfold longTop
    omega
  have hposition : 4 * i.val + offset ≤ longTop := by
    unfold longTop
    omega
  unfold spriteByte?
  refine (bind_some (mul?_eq hbase)).trans ((bind_some (add?_eq hposition)).trans ?_)
  exact Vector.getElem?_eq_getElem (by omega)

theorem spriteOf?_eq (ppu : Ppu) (i : Fin 64) : spriteOf? ppu.oam i = some (ppu.sprite i) := by
  unfold spriteOf?
  rw [spriteByte?_eq ppu.oam i (by decide), spriteByte?_eq ppu.oam i (by decide),
    spriteByte?_eq ppu.oam i (by decide), spriteByte?_eq ppu.oam i (by decide)]
  rfl

/-- The chip that has looked at the sprites of a list: those for which there was room are in the
    line, and the overflow flag is set if there were more in range. -/
def evaluated (ppu : Ppu) (line room : Nat) (list : List (Fin 64)) : Ppu :=
  let found := list.filter fun i => (ppu.sprite i).onLine ppu.control.spriteHeight line
  { ppu with
    sprites := (found.take room).foldl (ppu.placeSprite line) ppu.sprites
    status := { ppu.status with overflow := ppu.status.overflow || room < found.length } }

variable (ppu : Ppu) {line : Nat} {i : Fin 64} (list : List (Fin 64))

theorem evaluated_nil (line room : Nat) : ppu.evaluated line room [] = ppu := by
  unfold evaluated
  simp

/-- A sprite that is not in range is passed over. -/
theorem evaluated_out (h : ¬ppu.InRange line i) (room : Nat) :
    ppu.evaluated line room (i :: list) = ppu.evaluated line room list := by
  have hout := onLine_eq ppu line i
  rw [decide_eq_false h] at hout
  unfold evaluated
  rw [List.filter_cons, hout]
  rfl

/-- A sprite in range for which there is no room sets the flag, and nothing more happens. -/
theorem evaluated_full (h : ppu.InRange line i) :
    ppu.evaluated line 0 (i :: list) =
      { ppu with status := { ppu.status with overflow := true } } := by
  have hin := onLine_eq ppu line i
  rw [decide_eq_true h] at hin
  unfold evaluated
  rw [List.filter_cons, hin]
  simp

/-- A sprite in range for which there is room is put into the line. -/
theorem evaluated_in (h : ppu.InRange line i) (room : Nat) :
    ppu.evaluated line (room + 1) (i :: list) =
      evaluated { ppu with sprites := ppu.placeSprite line ppu.sprites i } line room list := by
  have hin := onLine_eq ppu line i
  rw [decide_eq_true h] at hin
  unfold evaluated
  dsimp only
  rw [List.filter_cons, hin, if_pos rfl, List.take_succ_cons, List.foldl_cons, List.length_cons]
  simp only [Nat.add_lt_add_iff_right]
  rfl

theorem evaluateEach?_eq (hline : line < 0x10000) {found : Nat} (hfound : found ≤ spritesPerLine) :
    ppu.pack.evaluateEach? line found list =
      some (ppu.evaluated line (spritesPerLine - found) list).pack := by
  induction list generalizing ppu found with
  | nil =>
    rw [evaluated_nil]
    rfl
  | cons i list ih =>
    have hheight := ppu.control.spriteHeight_le
    have hy := (ppu.sprite i).y.toNat_lt
    unfold PackedPpu.evaluateEach?
    refine (bind_some (ppu.spriteOf?_eq i)).trans ?_
    dsimp only
    by_cases inRange : ppu.InRange line i
    · have hrow : (line + 0x10000 - (ppu.sprite i).y.toNat) % 0x10000 =
          line - (ppu.sprite i).y.toNat := by
        have hfrom := (inRange_iff.mp inRange).1
        omega
      have hshown : ¬ppu.pack.control.spriteHeight ≤ line - (ppu.sprite i).y.toNat :=
        Nat.not_le.mpr (inRange_iff.mp inRange).2
      rw [hrow, if_neg hshown]
      split
      · next full =>
        rw [full, Nat.sub_self, evaluated_full ppu list inRange]
        rfl
      · next more =>
        have hroom : spritesPerLine - found = spritesPerLine - (found + 1) + 1 := by omega
        have hmore : found + 1 ≤ longTop :=
          Nat.le_trans (show found + 1 ≤ spritesPerLine by omega) (by decide)
        have hplaced := placeSprite?_eq ppu line ppu.sprites inRange
        rw [hroom, evaluated_in ppu list inRange]
        refine (bind_some (add?_eq hmore)).trans ((bind_some hplaced).trans ?_)
        exact ih { ppu with sprites := ppu.placeSprite line ppu.sprites i } (by omega)
    · have hrow : ppu.pack.control.spriteHeight ≤
          (line + 0x10000 - (ppu.sprite i).y.toNat) % 0x10000 := by
        show ppu.control.spriteHeight ≤ _
        rw [inRange_iff] at inRange
        omega
      rw [if_pos hrow, evaluated_out ppu list inRange]
      exact ih ppu hfound

theorem evaluateSprites?_eq (hline : line < 0x10000) :
    ppu.pack.evaluateSprites? line = some (ppu.evaluateSprites line).pack := by
  have hcleared : ({ ppu.pack with sprites := {} } : PackedPpu) =
      Ppu.pack { ppu with sprites := {} } := by
    unfold pack
    rw [SpriteLine.pack_empty]
  unfold PackedPpu.evaluateSprites?
  rw [hcleared]
  exact evaluateEach?_eq { ppu with sprites := {} } _ hline (Nat.zero_le _)

end Ppu
end Nes
