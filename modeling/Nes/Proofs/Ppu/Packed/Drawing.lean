/-
  Drawing a line with a pen, and with every index and every result looked at.

  The chip does not lay out the tiles of a line first. It draws column by column with a `Pen`, the
  address, the column inside the tile and the bits of the tile, and fetches the next tile when that
  column comes to eight. `penAt` says where the pen is in column `x`: the tile is the one that
  `(fineX + x) / 8` steps lead to. Moving the pen leads to the next column (`movePen?_eq`), and so
  the columns that are drawn show what the line view has there (`drawFrom?_eq`, by induction on the
  columns that are left).

  Pixels are taken apart as bytes: bit 7 of a sprite pixel tells whether there is one, bit 6 whether
  it is behind, bit 5 whether it is of the first sprite. Palette, colours and the row of the picture
  are looked up with their bounds.
-/
import Mathlib.Logic.Function.Iterate
import Nes.Proofs.Ppu.Packed.Sprites
import Nes.Proofs.Ppu.PlainPicture

namespace Nes

open Checked

/-! ## Bytes of pixels -/

/-- Whether a dot is behind or of the first sprite, and its entry among the sprite palettes, can be
    told from its byte. -/
theorem SpriteDot.bits_toByte {dot : SpriteDot} (h : dot.entry.toNat < 16) :
    bit dot.toByte 6 = dot.behind ∧ bit dot.toByte 5 = dot.first ∧
      0x10 ||| (dot.toByte &&& 0xF) = 0x10 + dot.entry := by
  have hall : ∀ (entry : Fin 16) (behind first : Bool),
      bit (SpriteDot.mk (UInt8.ofNat entry) behind first).toByte 6 = behind ∧
        bit (SpriteDot.mk (UInt8.ofNat entry) behind first).toByte 5 = first ∧
        0x10 ||| ((SpriteDot.mk (UInt8.ofNat entry) behind first).toByte &&& 0xF) =
          0x10 + UInt8.ofNat entry := by decide
  have hdot := hall ⟨dot.entry.toNat, h⟩ dot.behind dot.first
  rw [UInt8.ofNat_toNat] at hdot
  exact hdot

/-- `TileRow.entry`, checked. -/
def TileRow.entry? (tile : TileRow) (col : Nat) : Option UInt8 := do
  let position ← sub? 7 col
  let color ← patternColor? tile.lo tile.hi position
  return if color = 0 then 0 else (tile.palette <<< 2) ||| color

theorem TileRow.entry?_eq {tile : TileRow} (hpalette : tile.palette.toNat < 4) {col : Nat}
    (h : col < 8) : tile.entry? col = some (tile.entry col) := by
  have hfew := patternColor_lt tile.lo tile.hi (7 - col)
  unfold entry? entry
  refine (bind_some (sub?_eq (by omega))).trans ?_
  refine (bind_some (patternColor?_eq tile.lo tile.hi (by omega))).trans ?_
  rw [shiftLeft_or_color hpalette hfew]
  rfl

theorem TileRow.entry_lt {tile : TileRow} (hpalette : tile.palette.toNat < 4) (col : Nat) :
    (tile.entry col).toNat < 16 := by
  have hhi := Bool.toNat_le (bit tile.hi (7 - col))
  have hlo := Bool.toNat_le (bit tile.lo (7 - col))
  rw [TileRow.toNat_entry tile hpalette]
  split <;> omega

/-- `color`, checked: six bits of the palette byte count, in greyscale the upper two of them. -/
def ColorTable.color? (table : ColorTable) (greyscale : Bool) (entry : UInt8) : Option UInt32 :=
  table.colors[if greyscale then entry.toNat % 64 / 16 * 16 else entry.toNat % 64]?

theorem ColorTable.color?_eq (table : ColorTable) (greyscale : Bool) (entry : UInt8) :
    table.color? greyscale entry = some (table.color greyscale entry) := by
  have hindex : (if greyscale then entry.toNat % 64 / 16 * 16 else entry.toNat % 64) =
      (if greyscale then entry.toNat / 16 * 16 else entry.toNat) % 64 := by
    split <;> omega
  unfold color? color
  rw [hindex]
  exact Vector.getElem?_eq_getElem (Nat.mod_lt _ (by decide))

/-! ## Drawing column by column -/

/-- A picture and where a row of it starts. -/
abbrev PictureRow := Picture × Nat

/-- Sets the pixel in column `x` of a row. -/
def PictureRow.set? (row : PictureRow) (x : Nat) (ink : UInt32) : Option PictureRow :=
  if x < screenWidth ∧ row.2 + x < row.1.size then
    some (row.1.setIfInBounds (row.2 + x) ink, row.2)
  else none

/-- Where the drawing of a line has come to. -/
structure Pen where
  v : Nat
  /-- Column inside the tile. -/
  fineX : Nat
  tile : TileRow

namespace PackedPpu

/-- `Ppu.tileRow`, checked. -/
def tileRow? (ppu : PackedPpu) (v : Nat) : Option TileRow := do
  let tile ← ppu.memory.read? (PackedAddress.tileAddress v)
  let attributes ← ppu.memory.read? (PackedAddress.attributeAddress v)
  let palette ← shiftRight? 8 attributes.toNat (PackedAddress.attributeShift v)
  let plane ← mul? wordTop tile.toNat 16
  let start ← add? wordTop ppu.control.backgroundPatterns plane
  let addr ← add? wordTop start (PackedAddress.fineY v)
  let lo ← ppu.memory.read? addr
  let above ← add? wordTop addr 8
  let hi ← ppu.memory.read? above
  return { lo, hi, palette := UInt8.ofNat (palette % 4) }

/-- The visible background entry in column `x`. -/
def backgroundAt? (ppu : PackedPpu) (pen : Pen) (x : Nat) : Option UInt8 :=
  if ppu.mask.backgroundAt x then pen.tile.entry? pen.fineX else some 0

/-- The visible sprite pixel in column `x`, zero if there is none. -/
def spriteAt? (ppu : PackedPpu) (x : Nat) : Option UInt8 :=
  if ppu.mask.spritesAt x then ppu.sprites.pixels[x]? else some 0

/-- The palette entry that is shown. -/
def composed (background sprite : UInt8) : UInt8 :=
  if bit sprite 7 && (background == 0 || !bit sprite 6) then 0x10 ||| (sprite &&& 0xF)
  else background

/-- Whether the first sprite meets the background in column `x`. -/
def meets (background sprite : UInt8) (x : Nat) : Bool :=
  background != 0 && bit sprite 7 && bit sprite 5 && x != 255

/-- `Ppu.inkOf`, checked. -/
def inkOf? (ppu : PackedPpu) (entry : UInt8) : Option UInt32 := do
  let byte ← ppu.memory.palette[entry.toNat]?
  ppu.colors.color? ppu.mask.greyscale byte

/-- Colours a column of a row, if there is a row. -/
def paintPixel? (ppu : PackedPpu) (row : Option PictureRow) (x : Nat) (entry : UInt8) :
    Option (Option PictureRow) :=
  match row with
  | none => some none
  | some row => do
    let ink ← ppu.inkOf? entry
    let row ← row.set? x ink
    return some row

/-- Moves the pen to the next column. -/
def movePen? (ppu : PackedPpu) (pen : Pen) : Option Pen := do
  let fineX ← add? byteTop pen.fineX 1
  if fineX = 8 then do
    let v ← PackedAddress.nextTile? pen.v
    let tile ← ppu.tileRow? v
    return { v, fineX := 0, tile }
  else return { pen with fineX }

/-- Draws `count` columns from column `x` on, and finds out whether the first sprite is hit. -/
def drawFrom? (ppu : PackedPpu) (pen : Pen) (x : Nat) (row : Option PictureRow) (hit : Bool) :
    (count : Nat) → Option (Option PictureRow × Bool)
  | 0 => some (row, hit)
  | count + 1 => do
    let background ← ppu.backgroundAt? pen x
    let sprite ← ppu.spriteAt? x
    let row ← ppu.paintPixel? row x (composed background sprite)
    let pen ← ppu.movePen? pen
    drawFrom? ppu pen (x + 1) row (hit || meets background sprite x) count

end PackedPpu

namespace Ppu

variable (ppu : Ppu)

theorem palette_tileRow_lt (v : VideoAddress) : (ppu.tileRow v).palette.toNat < 4 := by
  unfold tileRow
  rw [toNat_two_bits]
  exact Nat.mod_lt _ (by decide)

theorem tileRow?_eq (v : VideoAddress) : ppu.pack.tileRow? v.toNat = some (ppu.tileRow v) := by
  have htop : wordTop = 0xFFFF := rfl
  have htable : ppu.control.backgroundPatterns ≤ 0x1000 := by
    unfold Control.backgroundPatterns
    split <;> decide
  have htile := (ppu.readByte v.tileAddress).toNat_lt
  have hfine := v.fineY.isLt
  have hshift : v.attributeShift < 8 := by
    unfold VideoAddress.attributeShift
    omega
  unfold PackedPpu.tileRow? tileRow
  rw [v.tileAddress_toNat, v.attributeAddress_toNat, v.attributeShift_toNat, v.fineY_toNat]
  refine (bind_some (ppu.memory.read?_eq _)).trans ?_
  refine (bind_some (ppu.memory.read?_eq _)).trans ?_
  refine (bind_some (shiftRight?_eq hshift)).trans ?_
  have hplane : (ppu.readByte v.tileAddress).toNat * 16 ≤ wordTop := by omega
  have hstart : ppu.control.backgroundPatterns + (ppu.readByte v.tileAddress).toNat * 16 ≤
      wordTop := by omega
  have haddr : ppu.control.backgroundPatterns + (ppu.readByte v.tileAddress).toNat * 16 +
      v.fineY.val ≤ wordTop := by omega
  have habove : ppu.control.backgroundPatterns + (ppu.readByte v.tileAddress).toNat * 16 +
      v.fineY.val + 8 ≤ wordTop := by omega
  refine (bind_some (mul?_eq hplane)).trans ?_
  refine (bind_some (add?_eq hstart)).trans ?_
  refine (bind_some (add?_eq haddr)).trans ?_
  refine (bind_some (ppu.memory.read?_eq _)).trans ?_
  refine (bind_some (add?_eq habove)).trans ?_
  exact bind_some (ppu.memory.read?_eq _)

/-! ## The pen -/

/-- The address of the tile that is `tiles` to the right of where the line starts. -/
def tileAfter (tiles : Nat) : VideoAddress := VideoAddress.nextTile^[tiles] ppu.scroll.v

/-- The pen in column `x`. -/
def penAt (x : Nat) : Pen where
  v := (ppu.tileAfter ((ppu.scroll.fineX + x) / 8)).toNat
  fineX := (ppu.scroll.fineX + x) % 8
  tile := ppu.tileRow (ppu.tileAfter ((ppu.scroll.fineX + x) / 8))

theorem entry?_penAt (x : Nat) :
    (ppu.penAt x).tile.entry? (ppu.penAt x).fineX =
      some ((ppu.penAt x).tile.entry (ppu.penAt x).fineX) :=
  TileRow.entry?_eq (ppu.palette_tileRow_lt _) (Nat.mod_lt _ (by decide))

theorem movePen?_eq (x : Nat) : ppu.pack.movePen? (ppu.penAt x) = some (ppu.penAt (x + 1)) := by
  have hsum : (ppu.scroll.fineX.val + x) % 8 + 1 ≤ byteTop := by
    unfold byteTop
    omega
  unfold PackedPpu.movePen?
  refine (bind_some (add?_eq hsum)).trans ?_
  split
  · next last =>
    have hlast : (ppu.scroll.fineX.val + x) % 8 + 1 = 8 := last
    have htile : (ppu.scroll.fineX.val + (x + 1)) / 8 = (ppu.scroll.fineX.val + x) / 8 + 1 := by
      omega
    have hcolumn : (ppu.scroll.fineX.val + (x + 1)) % 8 = 0 := by omega
    have hnext : ppu.tileAfter ((ppu.scroll.fineX.val + x) / 8 + 1) =
        (ppu.tileAfter ((ppu.scroll.fineX.val + x) / 8)).nextTile :=
      Function.iterate_succ_apply' _ _ _
    refine (bind_some (VideoAddress.nextTile?_eq _)).trans ?_
    refine (bind_some (ppu.tileRow?_eq _)).trans ?_
    unfold penAt
    rw [htile, hcolumn, hnext]
    rfl
  · next inside =>
    have hinside : ¬(ppu.scroll.fineX.val + x) % 8 + 1 = 8 := inside
    have htile : (ppu.scroll.fineX.val + (x + 1)) / 8 = (ppu.scroll.fineX.val + x) / 8 := by omega
    have hcolumn : (ppu.scroll.fineX.val + (x + 1)) % 8 = (ppu.scroll.fineX.val + x) % 8 + 1 := by
      omega
    unfold penAt
    rw [htile, hcolumn]
    rfl

/-- The entries of `count` tiles, behind those that are there already. -/
theorem getElem?_backgroundFrom (v : VideoAddress) (out : Array UInt8) (count : Nat) :
    (∀ i < out.size, (ppu.backgroundFrom v out count)[i]? = out[i]?) ∧
      ∀ i < 8 * count, (ppu.backgroundFrom v out count)[out.size + i]? =
        some ((ppu.tileRow (VideoAddress.nextTile^[i / 8] v)).entry (i % 8)) := by
  induction count generalizing out v with
  | zero => exact ⟨fun _ _ => rfl, fun i hi => absurd hi (by omega)⟩
  | succ count ih =>
    unfold backgroundFrom
    obtain ⟨hbefore, hlater⟩ := ih v.nextTile ((ppu.tileRow v).entries out)
    rw [TileRow.size_entries] at hbefore hlater
    refine ⟨fun i hi => ?_, fun i hi => ?_⟩
    · rw [hbefore i (by omega), TileRow.getElem?_entries, if_pos hi]
    · by_cases hfirst : i < 8
      · have htile : i / 8 = 0 := by omega
        rw [hbefore _ (by omega), TileRow.getElem?_entries, if_neg (by omega), if_pos (by omega),
          Nat.add_sub_cancel_left, Nat.mod_eq_of_lt hfirst, htile]
        rfl
      · have hthere := hlater (i - 8) (by omega)
        have hindex : out.size + 8 + (i - 8) = out.size + i := by omega
        have hcolumn : (i - 8) % 8 = i % 8 := by omega
        have htile : i / 8 = (i - 8) / 8 + 1 := by omega
        rw [hindex, hcolumn] at hthere
        rw [hthere, htile, Function.iterate_succ_apply]

/-- What the pen finds in column `x` is what the line view has there. -/
theorem backgroundAt?_eq {x : Nat} (h : x < screenWidth) :
    ppu.pack.backgroundAt? (ppu.penAt x) x = some (ppu.lineView.backgroundAt x) := by
  have hfine := ppu.scroll.fineX.isLt
  have hinside : ppu.scroll.fineX.val + x < 8 * tilesPerLine := by
    unfold screenWidth at h
    unfold tilesPerLine
    omega
  have hentry := (ppu.getElem?_backgroundFrom ppu.scroll.v (Array.mkEmpty (8 * tilesPerLine))
    tilesPerLine).2 _ hinside
  have hempty : (Array.mkEmpty (8 * tilesPerLine) : Array UInt8).size = 0 := rfl
  rw [hempty, Nat.zero_add] at hentry
  have hcolumn : ppu.lineView.background.getD (ppu.lineView.fineX + x) 0 =
      (ppu.penAt x).tile.entry (ppu.penAt x).fineX :=
    Array.getD_eq_getD_getElem?.trans (congrArg (Option.getD · 0) hentry)
  unfold PackedPpu.backgroundAt? LineView.backgroundAt
  rw [hcolumn, entry?_penAt]
  exact (apply_ite some _ _ _).symm

theorem background_lt {x : Nat} (h : x < screenWidth) :
    (ppu.lineView.backgroundAt x).toNat < 16 := by
  have hsame := ppu.backgroundAt?_eq h
  unfold PackedPpu.backgroundAt? at hsame
  rw [entry?_penAt] at hsame
  split at hsame
  · rw [← Option.some.inj hsame]
    exact TileRow.entry_lt (ppu.palette_tileRow_lt _) _
  · rw [← Option.some.inj hsame]
    decide

/-! ## Pixels -/

variable {ppu : Ppu}

theorem spriteAt?_eq (ppu : Ppu) {x : Nat} (h : x < screenWidth) :
    ppu.pack.spriteAt? x = some (cellByte (ppu.lineView.spriteAt x)) := by
  have hin : x < 256 := h
  have hcell : ppu.pack.sprites.pixels[x]? = some (cellByte ppu.sprites.cells[x]) :=
    ppu.sprites.getElem?_pack hin
  have hview : ppu.lineView.sprites.toArray.getD x none = ppu.sprites.cells[x] := by
    rw [Array.getD_eq_getD_getElem?, Vector.getElem?_toArray, Vector.getElem?_eq_getElem hin]
    rfl
  unfold PackedPpu.spriteAt? LineView.spriteAt
  rw [hcell, hview]
  have hmask : ppu.lineView.mask = ppu.pack.mask := rfl
  rw [hmask]
  split <;> rfl

/-- The sprite pixels that are visible are opaque. -/
theorem opaque_spriteAt (solid : ppu.sprites.Opaque) {x : Nat} {dot : SpriteDot}
    (h : ppu.lineView.spriteAt x = some dot) : dot.Opaque :=
  solid x dot (sprites_of_dot h).2

theorem composed_eq (solid : ppu.sprites.Opaque) (x : Nat) :
    PackedPpu.composed (ppu.lineView.backgroundAt x) (cellByte (ppu.lineView.spriteAt x)) =
      ppu.lineView.entryAt x := by
  unfold PackedPpu.composed LineView.entryAt
  rw [bit_present]
  cases hsprite : ppu.lineView.spriteAt x with
  | none => rfl
  | some dot =>
    obtain ⟨hbehind, -, hentry⟩ := SpriteDot.bits_toByte (opaque_spriteAt solid hsprite).entry_lt
    have hbyte : cellByte (some dot) = dot.toByte := rfl
    rw [hbyte, hbehind, hentry]
    rfl

theorem meets_eq (solid : ppu.sprites.Opaque) (x : Nat) :
    PackedPpu.meets (ppu.lineView.backgroundAt x) (cellByte (ppu.lineView.spriteAt x)) x =
      (ppu.lineView.hitAt x && x != 255) := by
  unfold PackedPpu.meets LineView.hitAt
  rw [bit_present]
  cases hsprite : ppu.lineView.spriteAt x with
  | none =>
    rw [Option.isSome_none, Bool.and_false]
    rfl
  | some dot =>
    obtain ⟨-, hfirst, -⟩ := SpriteDot.bits_toByte (opaque_spriteAt solid hsprite).entry_lt
    have hbyte : cellByte (some dot) = dot.toByte := rfl
    rw [hbyte, hfirst, Option.isSome_some, Bool.and_true, Bool.and_comm (_ != 0)]

theorem entryAt_lt (solid : ppu.sprites.Opaque) {x : Nat} (h : x < screenWidth) :
    (ppu.lineView.entryAt x).toNat < 32 := by
  have hbackground := ppu.background_lt h
  unfold LineView.entryAt
  dsimp only
  cases hsprite : ppu.lineView.spriteAt x with
  | none => exact Nat.lt_trans hbackground (by decide)
  | some dot =>
    have hdot := (opaque_spriteAt solid hsprite).entry_lt
    dsimp only
    split
    · have hbase : (0x10 : UInt8).toNat = 0x10 := rfl
      rw [UInt8.toNat_add, hbase]
      omega
    · exact Nat.lt_trans hbackground (by decide)

theorem inkOf?_eq (ppu : Ppu) {entry : UInt8} (h : entry.toNat < 32) :
    ppu.pack.inkOf? entry = some (ppu.inkOf entry) := by
  have hbyte : ppu.memory.palette.toArray.getD entry.toNat 0 = ppu.memory.palette[entry.toNat] := by
    rw [Array.getD_eq_getD_getElem?, Vector.getElem?_toArray, Vector.getElem?_eq_getElem h]
    rfl
  unfold PackedPpu.inkOf? inkOf
  rw [hbyte]
  exact (bind_some (Vector.getElem?_eq_getElem h)).trans (ppu.colors.color?_eq _ _)

/-- The rest of a row, painted in the colours that the line view has. -/
def paintedRow (ppu : Ppu) (x count : Nat) (row : PictureRow) : PictureRow :=
  (row.1.paint row.2 x (fun x => ppu.inkOf (ppu.lineView.entryAt x)) count, row.2)

/-- There is room for a row. -/
def Fits (row : Option PictureRow) : Prop :=
  ∀ picture start, row = some (picture, start) → start + screenWidth ≤ picture.size

theorem paintPixel?_eq (solid : ppu.sprites.Opaque) {x : Nat} (h : x < screenWidth)
    {row : Option PictureRow} (fits : Fits row) :
    ppu.pack.paintPixel? row x (ppu.lineView.entryAt x) = some (row.map (ppu.paintedRow x 1)) := by
  cases row with
  | none => rfl
  | some row =>
    have hroom := fits row.1 row.2 rfl
    refine (bind_some (inkOf?_eq ppu (entryAt_lt solid h))).trans ?_
    exact bind_some (if_pos ⟨h, by omega⟩)

theorem fits_paintedRow {row : Option PictureRow} (fits : Fits row) (x count : Nat) :
    Fits (row.map (ppu.paintedRow x count)) := by
  cases row with
  | none => exact nofun
  | some row =>
    intro picture start hrow
    obtain ⟨rfl, rfl⟩ := Prod.mk.inj (Option.some.inj hrow)
    rw [Picture.size_paint]
    exact fits row.1 row.2 rfl

/-- The columns from `x` on are drawn as the line view has them. -/
theorem drawFrom?_eq (solid : ppu.sprites.Opaque) {x count : Nat} (h : x + count = screenWidth)
    {row : Option PictureRow} (fits : Fits row) (hit : Bool) :
    ppu.pack.drawFrom? (ppu.penAt x) x row hit count =
      some (row.map (ppu.paintedRow x count), hit || ppu.lineView.hitIn x (count - 1)) := by
  induction count generalizing x row hit with
  | zero =>
    have hsame : row.map (ppu.paintedRow x 0) = row := Option.map_id'
    rw [hsame]
    exact congrArg some (Prod.ext rfl (Bool.or_false hit).symm)
  | succ count ih =>
    have hx : x < screenWidth := by omega
    have hmeets := meets_eq solid x
    have hrest : (row.map (ppu.paintedRow x 1)).map (ppu.paintedRow (x + 1) count) =
        row.map (ppu.paintedRow x (count + 1)) := by
      rw [Option.map_map]
      rfl
    -- the last column is the one that does not count
    have hhit : (hit || (ppu.lineView.hitAt x && x != 255) ||
        ppu.lineView.hitIn (x + 1) (count - 1)) = (hit || ppu.lineView.hitIn x count) := by
      cases count with
      | zero =>
        have hlast : x = 255 := by
          unfold screenWidth at h
          omega
        rw [hlast]
        simp [LineView.hitIn]
      | succ count =>
        have hinside : (x != 255) = true := by
          unfold screenWidth at h
          simp
          omega
        rw [hinside, Bool.and_true, Bool.or_assoc]
        rfl
    unfold PackedPpu.drawFrom?
    refine (bind_some (ppu.backgroundAt?_eq hx)).trans ?_
    refine (bind_some (ppu.spriteAt?_eq hx)).trans ?_
    rw [composed_eq solid, hmeets]
    refine (bind_some (paintPixel?_eq solid hx fits)).trans ?_
    refine (bind_some (ppu.movePen?_eq x)).trans ?_
    rw [ih (by omega) (fits_paintedRow fits x 1), hrest, hhit]
    rfl

end Ppu

/-! ## A line -/

/-- `Picture.rowStart?`, checked. -/
def Picture.findRow? (picture : Picture) (line : Nat) : Option (Option Nat) :=
  if line < firstShownLine then some none
  else do
    let y ← sub? line firstShownLine
    if screenHeight ≤ y then return none
    else do
      let start ← mul? longTop y screenWidth
      let next ← add? longTop y 1
      let stop ← mul? longTop next screenWidth
      return if stop ≤ picture.size then some start else none

theorem Picture.findRow?_eq (picture : Picture) (line : Nat) :
    picture.findRow? line = some (picture.rowStart? line) := by
  unfold findRow? rowStart?
  dsimp only
  split
  · next above =>
    rw [if_neg (by omega)]
  · next below =>
    refine (bind_some (sub?_eq (Nat.le_of_not_lt below))).trans ?_
    split
    · next hidden =>
      rw [if_neg (by omega)]
      rfl
    · next shown =>
      have hstart : (line - firstShownLine) * screenWidth ≤ longTop := by
        unfold screenHeight firstShownLine at *
        unfold screenWidth longTop
        omega
      have hnext : line - firstShownLine + 1 ≤ longTop := by
        unfold screenHeight firstShownLine at *
        unfold longTop
        omega
      have hstop : (line - firstShownLine + 1) * screenWidth ≤ longTop := by
        unfold screenHeight firstShownLine at *
        unfold screenWidth longTop
        omega
      refine (bind_some (mul?_eq hstart)).trans ((bind_some (add?_eq hnext)).trans ?_)
      refine (bind_some (mul?_eq hstop)).trans ?_
      have hvisible : firstShownLine ≤ line ∧ line - firstShownLine < screenHeight := by omega
      simp only [hvisible.1, hvisible.2, true_and]
      rfl

namespace PackedPpu

/-- The row of a picture for a line, if there is a picture and the line is shown in it. -/
def rowOf? (picture : Option Picture) (line : Nat) : Option (Option PictureRow) :=
  match picture with
  | none => some none
  | some picture => do
    let start ← picture.findRow? line
    return start.map fun start => (picture, start)

/-- Whether this line can still set the hit flag. -/
def canHit (ppu : PackedPpu) : Bool :=
  ppu.sprites.hasFirst && ppu.mask.background && ppu.mask.sprites && !ppu.status.zeroHit

/-- `Ppu.drawLine`, checked. -/
def drawLine? (ppu : PackedPpu) (row : Option PictureRow) :
    Option (Option PictureRow × PackedPpu) :=
  if row.isNone && !ppu.canHit then some (row, ppu)
  else do
    let tile ← ppu.tileRow? ppu.scroll.v
    let pen : Pen := { v := ppu.scroll.v, fineX := ppu.scroll.fineX, tile }
    let drawn ← ppu.drawFrom? pen 0 row ppu.status.zeroHit screenWidth
    return (drawn.1, { ppu with status := { ppu.status with zeroHit := drawn.2 } })

/-- Fills a row with the backdrop, if there is a row. -/
def fillRow? (ppu : PackedPpu) (row : Option PictureRow) : Option (Option PictureRow) :=
  match row with
  | none => some none
  | some row => do
    let backdrop ← ppu.inkOf? 0
    return some (row.1.paint row.2 0 (fun _ => backdrop) screenWidth, row.2)

/-- The picture with a row that was drawn into it, if one was. -/
def pictureOf (picture : Option Picture) (row : Option PictureRow) : Option Picture :=
  (row.map Prod.fst).or picture

/-- `Ppu.renderScanline`, checked. -/
def renderScanline? (ppu : PackedPpu) (line : Nat) (picture : Option Picture) :
    Option (Option Picture × PackedPpu) :=
  if visibleLines ≤ line then some (picture, ppu)
  else do
    let row ← rowOf? picture line
    if ppu.mask.rendering then do
      let drawn ← ppu.drawLine? row
      let v ← PackedAddress.nextRow? drawn.2.scroll.v
      let ppu ← evaluateSprites? { drawn.2 with scroll := { drawn.2.scroll with v } } line
      return (pictureOf picture drawn.1, ppu)
    else do
      let row ← ppu.fillRow? row
      return (pictureOf picture row, { ppu with sprites := {} })

end PackedPpu

namespace Ppu

/-- The row of a picture for a line. -/
def rowOf (picture : Option Picture) (line : Nat) : Option PictureRow :=
  picture.bind fun picture => (picture.rowStart? line).map fun start => (picture, start)

theorem rowOf?_eq (picture : Option Picture) (line : Nat) :
    PackedPpu.rowOf? picture line = some (rowOf picture line) := by
  cases picture with
  | none => rfl
  | some picture => exact bind_some (picture.findRow?_eq line)

theorem fits_rowOf (picture : Option Picture) (line : Nat) : Fits (rowOf picture line) := by
  intro picture' start hrow
  unfold rowOf at hrow
  obtain ⟨shown, rfl, hstart⟩ := Option.bind_eq_some_iff.mp hrow
  obtain ⟨start', hstart', hpair⟩ := Option.map_eq_some_iff.mp hstart
  obtain ⟨rfl, rfl⟩ := Prod.mk.inj hpair
  unfold Picture.rowStart? at hstart'
  dsimp only at hstart'
  split at hstart'
  · next room =>
    cases hstart'
    have := room.2.2
    unfold screenWidth at *
    omega
  · cases hstart'

/-- The start of the row, as the model has it. -/
theorem map_snd_rowOf (picture : Option Picture) (line : Nat) :
    (rowOf picture line).map Prod.snd = picture.bind (·.rowStart? line) := by
  cases picture with
  | none => rfl
  | some picture =>
    show ((picture.rowStart? line).map fun start => (picture, start)).map Prod.snd = _
    rw [Option.map_map]
    exact Option.map_id'

theorem drawLine?_eq {ppu : Ppu} (solid : ppu.sprites.Opaque) {row : Option PictureRow}
    (fits : Fits row) (picture : Option Picture) :
    ppu.pack.drawLine? row = some (row.map (ppu.paintedRow 0 screenWidth),
      (ppu.drawLine picture (row.map Prod.snd)).2.pack) := by
  have hnone : (row.map Prod.snd).isNone = row.isNone := by
    cases row <;> rfl
  have hcan : ppu.pack.canHit = ppu.canHit := rfl
  have hpen : ppu.penAt 0 =
      { v := ppu.scroll.v.toNat, fineX := ppu.scroll.fineX, tile := ppu.tileRow ppu.scroll.v } := by
    have hfine := ppu.scroll.fineX.isLt
    have htile : (ppu.scroll.fineX.val + 0) / 8 = 0 := by omega
    have hcolumn : (ppu.scroll.fineX.val + 0) % 8 = ppu.scroll.fineX.val := by omega
    unfold penAt
    rw [htile, hcolumn]
    rfl
  have hdrawn := drawFrom?_eq solid (Nat.zero_add screenWidth) fits ppu.status.zeroHit
  rw [hpen] at hdrawn
  unfold PackedPpu.drawLine? drawLine
  rw [hnone, hcan]
  split
  · next undrawn =>
    have hrow : row = none := Option.isNone_iff_eq_none.mp (Bool.and_eq_true_iff.mp undrawn).1
    rw [hrow]
    rfl
  · refine (bind_some (ppu.tileRow?_eq ppu.scroll.v)).trans ?_
    exact bind_some hdrawn

theorem fillRow?_eq (ppu : Ppu) (row : Option PictureRow) :
    ppu.pack.fillRow? row = some (row.map fun row =>
      (row.1.paint row.2 0 (fun _ => ppu.inkOf 0) screenWidth, row.2)) := by
  cases row with
  | none => rfl
  | some row => exact bind_some (inkOf?_eq ppu (by decide))

/-- The picture that a line was drawn into. -/
theorem drawLine_fst (ppu : Ppu) (picture : Option Picture) (line : Nat) :
    (ppu.drawLine picture (picture.bind (·.rowStart? line))).1 =
      PackedPpu.pictureOf picture ((rowOf picture line).map (ppu.paintedRow 0 screenWidth)) := by
  unfold drawLine rowOf
  cases picture with
  | none =>
    rw [Option.bind_none, Option.bind_none]
    split <;> rfl
  | some picture =>
    rw [Option.bind_some, Option.bind_some]
    cases picture.rowStart? line with
    | none => split <;> rfl
    | some start => simp [PackedPpu.pictureOf, paintedRow]

theorem renderScanline?_eq {ppu : Ppu} (solid : ppu.sprites.Opaque) {line : Nat}
    (hline : line < 0x10000) (picture : Option Picture) :
    ppu.pack.renderScanline? line picture =
      some ((ppu.renderScanline line picture).1, (ppu.renderScanline line picture).2.pack) := by
  have hrendering : ppu.pack.mask.rendering = ppu.rendering := rfl
  unfold PackedPpu.renderScanline? renderScanline
  split
  · rfl
  · refine (bind_some (rowOf?_eq picture line)).trans ?_
    rw [hrendering]
    dsimp only
    split
    · have hdrawn := drawLine?_eq solid (fits_rowOf picture line) picture
      rw [map_snd_rowOf] at hdrawn
      refine (bind_some hdrawn).trans ?_
      dsimp only
      rw [drawLine_fst]
      generalize (ppu.drawLine picture (picture.bind (·.rowStart? line))).2 = drawn
      have hevaluated := evaluateSprites?_eq
        { drawn with scroll := { drawn.scroll with v := drawn.scroll.v.nextRow } } hline
      refine (bind_some (VideoAddress.nextRow?_eq drawn.scroll.v)).trans ?_
      exact bind_some hevaluated
    · refine (bind_some (fillRow?_eq ppu _)).trans (congrArg some (Prod.ext ?_ ?_))
      · unfold rowOf
        cases picture with
        | none => rfl
        | some picture =>
          rw [Option.bind_some, Option.bind_some]
          cases picture.rowStart? line with
          | none => rfl
          | some start => simp [PackedPpu.pictureOf]
      · unfold pack
        dsimp only
        rw [SpriteLine.pack_empty]

end Ppu
end Nes
