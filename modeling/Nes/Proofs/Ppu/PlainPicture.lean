/-
  The picture that the PPU draws, pixel by pixel.

  Line by line, the PPU walks an address through the nametables, reads a tile row for every eight
  columns, and takes colours from a table that it keeps. `plainPixel` says without any of that
  what a pixel shows: the background entry is looked up at a point of the plane of nametables,
  which is where the picture starts, plus the column and the line; the sprite pixel prepared for
  the line may cover it; and the colour comes from palette memory and the mask.

  A picture that is drawn from its first line to its last, with nothing in between, has exactly
  these pixels (`draws_plain_picture`). Before each line the PPU is as it was at the start but for
  the address, the sprite pixels and the flags (`atLine`), one line leads to the next
  (`renderScanline_atLine`), and so the lines drawn so far are plain and the others untouched
  (`drawLines_plain`).
-/
import Nes.Proofs.Console.Answers
import Nes.Proofs.Ppu.Reachable
import Nes.Proofs.Ppu.ScrollPlane

namespace Nes

/-! ## Painting -/

namespace Picture

/-- Painting sets the pixels of a row and no others. -/
theorem getElem?_paint (picture : Picture) (start x : Nat) (color : Nat → UInt32) (count i : Nat)
    (fits : start + x + count ≤ picture.size) :
    (picture.paint start x color count)[i]? =
      if start + x ≤ i ∧ i < start + x + count then some (color (i - start)) else picture[i]? := by
  induction count generalizing picture x with
  | zero =>
    unfold paint
    rw [if_neg (by omega)]
  | succ count ih =>
    unfold paint
    rw [ih _ _ (by rw [Array.size_setIfInBounds]; omega), Array.getElem?_setIfInBounds]
    by_cases hfirst : start + x = i
    · rw [if_neg (by omega), if_pos hfirst, if_pos (by omega), if_pos (by omega), ← hfirst,
        Nat.add_sub_cancel_left]
    · by_cases hlater : start + (x + 1) ≤ i ∧ i < start + (x + 1) + count
      · rw [if_pos hlater, if_pos (by omega)]
      · rw [if_neg hlater, if_neg hfirst, if_neg (by omega)]

theorem paint_congr (picture : Picture) (start x : Nat) {color color' : Nat → UInt32} {count : Nat}
    (same : ∀ column, column < x + count → color column = color' column) :
    picture.paint start x color count = picture.paint start x color' count := by
  induction count generalizing picture x with
  | zero => rfl
  | succ count ih =>
    unfold paint
    rw [same x (by omega), ih _ _ fun column h => same column (by omega)]

theorem rowStart?_shown {picture : Picture} (full : screenWidth * screenHeight ≤ picture.size)
    {line : Nat} (hfrom : firstShownLine ≤ line) (hto : line < firstShownLine + screenHeight) :
    picture.rowStart? line = some ((line - firstShownLine) * screenWidth) := by
  unfold rowStart?
  unfold screenWidth screenHeight firstShownLine at *
  rw [if_pos (by omega)]

theorem rowStart?_hidden (picture : Picture) {line : Nat}
    (h : line < firstShownLine ∨ firstShownLine + screenHeight ≤ line) :
    picture.rowStart? line = none := by
  unfold rowStart?
  rw [if_neg (by omega)]

end Picture

/-! ## Colours -/

theorem toNat_tint (level : UInt8) (emphasized : Bool) :
    (tint level emphasized).toNat = level.toNat / 2 + if emphasized then 128 else 0 := by
  have hlevel := level.toNat_lt
  have hhalf : (level / 2).toNat = level.toNat / 2 := UInt8.toNat_div level 2
  have hlift : (128 : UInt8).toNat = 128 := rfl
  unfold tint
  cases emphasized with
  | true =>
    rw [if_pos rfl, if_pos rfl, UInt8.toNat_add, hhalf, hlift]
    omega
  | false => exact hhalf

theorem packRgb_eq (red green blue : UInt8) :
    packRgb red green blue =
      UInt32.ofNat (0xFF000000 + 0x10000 * blue.toNat + 0x100 * green.toNat + red.toNat) := by
  have hred := red.toNat_lt
  have hgreen := green.toNat_lt
  have hblue := blue.toNat_lt
  refine UInt32.toNat_inj.mp ?_
  unfold packRgb
  simp only [UInt32.toNat_add, UInt32.toNat_mul, UInt8.toNat_toUInt32, UInt32.toNat_ofNat,
    UInt32.toNat_ofNat']
  omega

/-! ## Tile rows -/

/-- The entry of a tile in a column, as a number. -/
theorem TileRow.toNat_entry (tile : TileRow) (hpalette : tile.palette.toNat < 4) (col : Nat) :
    (tile.entry col).toNat =
      if 2 * (bit tile.hi (7 - col)).toNat + (bit tile.lo (7 - col)).toNat = 0 then 0
      else tile.palette.toNat * 4 +
        (2 * (bit tile.hi (7 - col)).toNat + (bit tile.lo (7 - col)).toNat) := by
  have hcolor := toNat_patternColor tile.lo tile.hi (7 - col)
  have hfew := patternColor_lt tile.lo tile.hi (7 - col)
  unfold entry
  dsimp only
  rw [← hcolor]
  by_cases hzero : patternColor tile.lo tile.hi (7 - col) = 0
  · rw [if_pos hzero, hzero]
    rfl
  · have hsome : (patternColor tile.lo tile.hi (7 - col)).toNat ≠ 0 := fun h =>
      hzero (UInt8.toNat_inj.mp h)
    rw [if_neg hzero, if_neg hsome, toNat_palette_color hpalette hfew]

theorem TileRow.size_entries (tile : TileRow) (out : Array UInt8) :
    (tile.entries out).size = out.size + 8 := by
  unfold entries
  simp only [Array.size_push]

theorem TileRow.getElem?_entries (tile : TileRow) (out : Array UInt8) (i : Nat) :
    (tile.entries out)[i]? =
      if i < out.size then out[i]?
      else if i < out.size + 8 then some (tile.entry (i - out.size)) else none := by
  have happend : tile.entries out = out ++ (Array.range 8).map tile.entry := by
    apply Array.ext'
    simp [entries, List.range_succ]
  rw [happend, Array.getElem?_append]
  split
  · rfl
  · rw [Array.getElem?_map, Array.getElem?_range]
    split
    · rw [if_pos (by omega)]
      rfl
    · rw [if_neg (by omega)]
      rfl

theorem toNat_two_bits (n : Nat) : (UInt8.ofNat (n % 4)).toNat = n % 4 := by
  rw [UInt8.toNat_ofNat']
  omega

namespace Ppu

/-! ## The plain picture -/

/-- The background entry at a point of the plane: zero where the tile is transparent. -/
def planeEntry (ppu : Ppu) (x y : Nat) : Nat :=
  let table := x / 256 + 2 * (y / 240)
  let col := x % 256
  let row := y % 240
  let tile := ppu.readByte (0x2000 + 0x400 * table + 32 * (row / 8) + col / 8)
  let attributes := ppu.readByte (0x23C0 + 0x400 * table + 8 * (row / 32) + col / 32)
  let pattern := (if ppu.control.backgroundTable then 0x1000 else 0) + tile.toNat * 16 + row % 8
  let lo := bit (ppu.readByte pattern) (7 - col % 8)
  let hi := bit (ppu.readByte (pattern + 8)) (7 - col % 8)
  let color := 2 * hi.toNat + lo.toNat
  let palette := attributes.toNat >>> (4 * (row / 16 % 2) + 2 * (col / 16 % 2)) % 4
  if color = 0 then 0 else palette * 4 + color

/-- The column of the plane that is shown in column `x`. -/
def worldX (ppu : Ppu) (x : Nat) : Nat :=
  let t := ppu.scroll.t
  (256 * t.tableX.toNat + 8 * t.coarseX + ppu.scroll.fineX + x) % 512

/-- The row of the plane that is shown on a line. -/
def worldY (ppu : Ppu) (line : Nat) : Nat :=
  let t := ppu.scroll.t
  (240 * t.tableY.toNat + 8 * t.coarseY + t.fineY + line) % 480

/-- The bits of the mask hide column `x`: one bit shows a part of the picture, and the leftmost
    eight columns are cut off unless another one is set, too. -/
def Hidden (shown left : Bool) (x : Nat) : Prop := shown = false ∨ x < 8 ∧ left = false

instance (shown left : Bool) (x : Nat) : Decidable (Hidden shown left x) :=
  inferInstanceAs (Decidable (_ ∨ _))

/-- The background entry of a pixel: zero where the background is hidden. -/
def plainBackground (ppu : Ppu) (line x : Nat) : Nat :=
  if Hidden ppu.mask.background ppu.mask.backgroundLeft x then 0
  else ppu.planeEntry (ppu.worldX x) (ppu.worldY line)

/-- The sprite pixels of a line. The first one finds what was prepared before, every other what
    was prepared on the line before it. -/
def preparedFor (ppu : Ppu) : (line : Nat) → SpriteLine
  | 0 => ppu.sprites
  | line + 1 => (ppu.evaluateSprites line).sprites

/-- The sprite pixel of a pixel, if there is one and it is visible. -/
def plainSprite (ppu : Ppu) (line x : Nat) : Option SpriteDot :=
  if Hidden ppu.mask.sprites ppu.mask.spritesLeft x then none
  else (ppu.preparedFor line).cells[x]?.join

/-- The palette entry of a pixel. -/
def plainEntry (ppu : Ppu) (line x : Nat) : Nat :=
  match ppu.plainSprite line x with
  | some dot =>
    if ppu.plainBackground line x = 0 ∨ dot.behind = false then 0x10 + dot.entry.toNat
    else ppu.plainBackground line x
  | none => ppu.plainBackground line x

/-- A channel of a colour. If any channel is emphasized, all are halved, and those that are
    emphasized are lifted by half of the range. -/
def plainChannel (ppu : Ppu) (level : UInt8) (emphasized : Bool) : Nat :=
  if ppu.mask.emphasis.red || ppu.mask.emphasis.green || ppu.mask.emphasis.blue then
    level.toNat / 2 + if emphasized then 128 else 0
  else level.toNat

/-- The colour of a palette entry, from palette memory and the mask alone. -/
def plainColor (ppu : Ppu) (entry : Nat) : UInt32 :=
  let value := (ppu.readByte (0x3F00 + entry)).toNat
  let (red, green, blue) :=
    masterPalette.get (wrap (if ppu.mask.greyscale then value / 16 * 16 else value))
  UInt32.ofNat
    (0xFF000000 + 0x10000 * ppu.plainChannel blue ppu.mask.emphasis.blue +
      0x100 * ppu.plainChannel green ppu.mask.emphasis.green +
      ppu.plainChannel red ppu.mask.emphasis.red)

/-- The colour that column `x` shows on a line. -/
def plainPixel (ppu : Ppu) (line x : Nat) : UInt32 := ppu.plainColor (ppu.plainEntry line x)

theorem worldX_eq (ppu : Ppu) (x : Nat) :
    ppu.worldX x = (ppu.scroll.t.planeX + (ppu.scroll.fineX + x)) % 512 := by
  unfold worldX VideoAddress.planeX
  dsimp only
  rw [Nat.add_assoc]

variable {ppu : Ppu}

/-! ## The mask -/

theorem not_hidden_iff {shown left : Bool} {x : Nat} :
    (shown && (decide (8 ≤ x) || left)) = true ↔ ¬Hidden shown left x := by
  have hleft : 8 ≤ x ↔ ¬x < 8 := Nat.not_lt.symm
  unfold Hidden
  rw [Bool.and_eq_true, Bool.or_eq_true, decide_eq_true_eq, hleft, not_or, not_and_or,
    Bool.not_eq_false, Bool.not_eq_false]

theorem rendering_iff :
    ppu.rendering = true ↔ ppu.mask.background = true ∨ ppu.mask.sprites = true :=
  Bool.or_eq_true_iff

/-- What emphasis makes of a colour. -/
theorem apply_eq (ppu : Ppu) (red green blue : UInt8) :
    ppu.mask.emphasis.apply (red, green, blue) =
      UInt32.ofNat
        (0xFF000000 + 0x10000 * ppu.plainChannel blue ppu.mask.emphasis.blue +
          0x100 * ppu.plainChannel green ppu.mask.emphasis.green +
          ppu.plainChannel red ppu.mask.emphasis.red) := by
  have hplain : ppu.mask.emphasis = {} ↔
      ¬(ppu.mask.emphasis.red || ppu.mask.emphasis.green || ppu.mask.emphasis.blue) = true := by
    obtain ⟨red, green, blue⟩ := ppu.mask.emphasis
    revert red green blue
    decide
  unfold Emphasis.apply plainChannel
  dsimp only
  by_cases plain : ppu.mask.emphasis = {}
  · have hnone := hplain.mp plain
    rw [if_pos plain, packRgb_eq, if_neg hnone, if_neg hnone, if_neg hnone]
  · have hsome := not_not.mp (mt hplain.mpr plain)
    rw [if_neg plain, packRgb_eq, toNat_tint, toNat_tint, toNat_tint, if_pos hsome, if_pos hsome,
      if_pos hsome]

/-! ## Palette entries -/

/-- A number that stands for a pixel: the backdrop, or a colour of one of the eight palettes. -/
structure IsEntry (entry : Nat) : Prop where
  entry_lt : entry < 32
  color : entry = 0 ∨ entry % 4 ≠ 0

theorem isEntry_bits (palette : Nat) (hi lo : Bool) :
    IsEntry (if 2 * hi.toNat + lo.toNat = 0 then 0
      else palette % 4 * 4 + (2 * hi.toNat + lo.toNat)) := by
  have hhi := Bool.toNat_le hi
  have hlo := Bool.toNat_le lo
  split
  · exact ⟨by omega, .inl rfl⟩
  · exact ⟨by omega, .inr (by omega)⟩

theorem isEntry_planeEntry (ppu : Ppu) (x y : Nat) : IsEntry (ppu.planeEntry x y) :=
  isEntry_bits _ _ _

theorem isEntry_plainBackground (ppu : Ppu) (line x : Nat) :
    IsEntry (ppu.plainBackground line x) := by
  unfold plainBackground
  split
  · exact ⟨by decide, .inl rfl⟩
  · exact isEntry_planeEntry ppu _ _

theorem isEntry_dot {dot : SpriteDot} (h : dot.Opaque) : IsEntry (0x10 + dot.entry.toNat) := by
  have hlt := h.entry_lt
  have hcolor := h.color
  exact ⟨by omega, .inr (by omega)⟩

/-- The palette cell of an entry is the entry itself. -/
theorem readByte_palette (ppu : Ppu) {entry : Nat} (h : IsEntry entry) :
    ppu.readByte (0x3F00 + entry) = ppu.memory.palette.toArray.getD entry 0 := by
  have hlt := h.entry_lt
  have hcolor := h.color
  have hcell : ppu.memory.cell (0x3F00 + entry) = .palette ⟨entry, hlt⟩ := by
    have hwrapped : (0x3F00 + entry) % 0x4000 = 0x3F00 + entry := Nat.mod_eq_of_lt (by omega)
    unfold VideoMemory.cell
    dsimp only
    rw [dif_neg (by omega), if_neg (by omega), hwrapped]
    unfold VideoMemory.paletteIndex
    split
    · exact congrArg _ (Fin.ext (by rw [val_wrap]; dsimp only; omega))
    · exact congrArg _ (Fin.ext (by rw [val_wrap]; dsimp only; omega))
  have hsize : entry < ppu.memory.palette.toArray.size := by
    rw [Vector.size_toArray]
    exact hlt
  unfold readByte VideoMemory.read
  rw [hcell, Array.getD_eq_getD_getElem?, Array.getElem?_eq_getElem hsize]
  rfl

/-- The colour of an entry comes from the table that is kept, and is the same. -/
theorem inkOf_eq (settled : ppu.Settled) {entry : UInt8} (h : IsEntry entry.toNat) :
    ppu.inkOf entry = ppu.plainColor entry.toNat := by
  unfold inkOf plainColor
  dsimp only
  rw [readByte_palette ppu h, settled.colors, ← apply_eq]
  unfold ColorTable.color ColorTable.of Emphasis.colors
  dsimp only
  exact Vector.getElem_map _ _

/-! ## Background -/

/-- A tile row shows the entries of the plane. -/
theorem entry_tileRow (ppu : Ppu) (x y : Nat) :
    ((ppu.tileRow (.ofPlane x y)).entry (x % 8)).toNat = ppu.planeEntry (x % 512) (y % 480) := by
  have hcol : x % 512 % 256 = x % 256 := Nat.mod_mod_of_dvd x (by decide)
  have hrow : y % 480 % 240 = y % 240 := Nat.mod_mod_of_dvd y (by decide)
  have hbit : x % 256 % 8 = x % 8 := Nat.mod_mod_of_dvd x (by decide)
  have hpalette : (ppu.tileRow (.ofPlane x y)).palette.toNat < 4 := by
    unfold tileRow
    rw [toNat_two_bits]
    exact Nat.mod_lt _ (by decide)
  rw [TileRow.toNat_entry _ hpalette]
  unfold tileRow planeEntry Control.backgroundPatterns
  dsimp only
  rw [toNat_two_bits, VideoAddress.tileAddress_ofPlane, VideoAddress.attributeAddress_ofPlane,
    VideoAddress.attributeShift_ofPlane, VideoAddress.fineY_ofPlane, hcol, hrow, hbit]

/-- The entries of `count` tiles, behind those that are there already. The column that they start
    in is one in which a tile starts. -/
theorem backgroundFrom_plane (ppu : Ppu) (y : Nat) (out : Array UInt8) (count : Nat) {x : Nat}
    (aligned : x % 8 = 0) :
    (∀ i < out.size, (ppu.backgroundFrom (.ofPlane x y) out count)[i]? = out[i]?) ∧
      ∀ i < 8 * count, (ppu.backgroundFrom (.ofPlane x y) out count)[out.size + i]? =
        some ((ppu.tileRow (.ofPlane (x + i) y)).entry (i % 8)) := by
  induction count generalizing out x with
  | zero => exact ⟨fun _ _ => rfl, fun i hi => absurd hi (by omega)⟩
  | succ count ih =>
    unfold backgroundFrom
    rw [VideoAddress.nextTile_ofPlane]
    generalize htile : ppu.tileRow (.ofPlane x y) = tile
    obtain ⟨hbefore, hlater⟩ := ih (tile.entries out) (x := x + 8) (by omega)
    rw [TileRow.size_entries] at hbefore hlater
    refine ⟨fun i hi => ?_, fun i hi => ?_⟩
    · rw [hbefore i (by omega), TileRow.getElem?_entries, if_pos hi]
    · by_cases hfirst : i < 8
      · have hsame : VideoAddress.ofPlane (x + i) y = .ofPlane x y :=
          VideoAddress.ofPlane_congr (by omega) rfl
        rw [hbefore _ (by omega), TileRow.getElem?_entries, if_neg (by omega), if_pos (by omega),
          hsame, htile, Nat.add_sub_cancel_left, Nat.mod_eq_of_lt hfirst]
      · have hthere := hlater (i - 8) (by omega)
        have hindex : out.size + 8 + (i - 8) = out.size + i := by omega
        have hcolumn : x + 8 + (i - 8) = x + i := by omega
        have hbit : (i - 8) % 8 = i % 8 := by omega
        rw [hindex, hcolumn, hbit] at hthere
        exact hthere

/-! ## One line -/

/-- The PPU when the lines before `line` are drawn: nothing has changed but the address, the
    sprite pixels and the flags. -/
def atLine (ppu : Ppu) (line : Nat) (status : PpuStatus) : Ppu :=
  { ppu with
    scroll := { ppu.scroll with
      v := .ofPlane ppu.scroll.t.planeX (ppu.scroll.t.planeY + line) }
    sprites := ppu.preparedFor line
    status }

theorem preRender_first (rendering : ppu.rendering = true)
    (inside : ppu.scroll.t.coarseY.val ≤ 29) : ppu.preRender 0 = ppu.atLine 0 ppu.status := by
  unfold preRender atLine
  rw [if_pos rfl, if_pos rendering, Nat.add_zero, VideoAddress.ofPlane_self _ inside]
  rfl

theorem preRender_atLine (rendering : ppu.rendering = true) {line : Nat} (later : line ≠ 0)
    (visible : line < visibleLines) (status : PpuStatus) :
    (ppu.atLine line status).preRender line = ppu.atLine line status := by
  have hrendering : (ppu.atLine line status).rendering = true := rendering
  have hcolumn : (ppu.atLine line status).scroll.v.toColumnOf ppu.scroll.t =
      (ppu.atLine line status).scroll.v := VideoAddress.toColumnOf_ofPlane _ _ _
  unfold preRender
  rw [if_neg later, if_pos visible, if_pos hrendering]
  have hscroll : (ppu.atLine line status).scroll.t = ppu.scroll.t := rfl
  rw [hscroll, hcolumn]

/-- The tiles of a line reach from its left edge to its right one, whatever the fine scroll. -/
theorem getElem?_lineView (ppu : Ppu) (line : Nat) (status : PpuStatus) {x : Nat}
    (hx : x < screenWidth) :
    (ppu.atLine line status).lineView.background[ppu.scroll.fineX.val + x]? =
      some (((ppu.atLine line status).tileRow (.ofPlane
        (ppu.scroll.t.planeX + (ppu.scroll.fineX.val + x)) (ppu.scroll.t.planeY + line))).entry
          ((ppu.scroll.t.planeX + (ppu.scroll.fineX.val + x)) % 8)) := by
  have hfine : ppu.scroll.fineX.val < 8 := ppu.scroll.fineX.isLt
  have haligned : ppu.scroll.t.planeX % 8 = 0 := by
    unfold VideoAddress.planeX
    omega
  have hinside : ppu.scroll.fineX.val + x < 8 * tilesPerLine := by
    unfold screenWidth at hx
    unfold tilesPerLine
    omega
  have hentry := (backgroundFrom_plane (ppu.atLine line status) (ppu.scroll.t.planeY + line)
    (Array.mkEmpty (8 * tilesPerLine)) tilesPerLine haligned).2 _ hinside
  have hempty : (Array.mkEmpty (8 * tilesPerLine) : Array UInt8).size = 0 := rfl
  have hbit : (ppu.scroll.fineX.val + x) % 8 =
      (ppu.scroll.t.planeX + (ppu.scroll.fineX.val + x)) % 8 := by omega
  rw [hempty, Nat.zero_add, hbit] at hentry
  exact hentry

/-- The background of a line is that of the plane. -/
theorem background_atLine (ppu : Ppu) (line : Nat) (status : PpuStatus) {x : Nat}
    (hx : x < screenWidth) :
    ((ppu.atLine line status).lineView.backgroundAt x).toNat = ppu.plainBackground line x := by
  have hplane := entry_tileRow (ppu.atLine line status)
    (ppu.scroll.t.planeX + (ppu.scroll.fineX.val + x)) (ppu.scroll.t.planeY + line)
  have hcolumn : (ppu.atLine line status).lineView.background.getD
      ((ppu.atLine line status).lineView.fineX + x) 0 = _ :=
    Array.getD_eq_getD_getElem?.trans (congrArg (Option.getD · 0) (getElem?_lineView ppu line
      status hx))
  unfold LineView.backgroundAt plainBackground
  have hshown : (ppu.atLine line status).lineView.mask.backgroundAt x = true ↔
      ¬Hidden ppu.mask.background ppu.mask.backgroundLeft x := not_hidden_iff
  by_cases hidden : Hidden ppu.mask.background ppu.mask.backgroundLeft x
  · rw [if_pos hidden, if_neg fun shown => hshown.mp shown hidden]
    rfl
  · rw [if_neg hidden, if_pos (hshown.mpr hidden), hcolumn, worldX_eq]
    exact hplane

/-- The visible sprite pixel of a line is the one that was prepared. -/
theorem sprite_atLine (line : Nat) (status : PpuStatus) (x : Nat) :
    (ppu.atLine line status).lineView.spriteAt x = ppu.plainSprite line x := by
  have hcell : (ppu.atLine line status).lineView.sprites.toArray.getD x none =
      (ppu.preparedFor line).cells[x]?.join := by
    have hjoin (cell : Option (Option SpriteDot)) : cell.getD none = cell.join := by
      cases cell <;> rfl
    rw [Array.getD_eq_getD_getElem?, Vector.getElem?_toArray, hjoin]
    rfl
  have hshown : (ppu.atLine line status).lineView.mask.spritesAt x = true ↔
      ¬Hidden ppu.mask.sprites ppu.mask.spritesLeft x := not_hidden_iff
  unfold LineView.spriteAt plainSprite
  rw [hcell]
  by_cases hidden : Hidden ppu.mask.sprites ppu.mask.spritesLeft x
  · rw [if_pos hidden, if_neg fun shown => hshown.mp shown hidden]
  · rw [if_neg hidden, if_pos (hshown.mpr hidden)]

theorem opaque_preparedFor (settled : ppu.Settled) (line : Nat) :
    (ppu.preparedFor line).Opaque := by
  cases line with
  | zero => exact settled.sprites
  | succ line => exact opaque_evaluateSprites ppu line

theorem opaque_plainSprite (settled : ppu.Settled) {line x : Nat} {dot : SpriteDot}
    (h : ppu.plainSprite line x = some dot) : dot.Opaque := by
  unfold plainSprite at h
  split at h
  · cases h
  · exact opaque_preparedFor settled line x dot (Option.join_eq_some_iff.mp h)

/-- What a column of a line shows is what the plain picture has there. -/
theorem entry_atLine (settled : ppu.Settled) (line : Nat) (status : PpuStatus) {x : Nat}
    (hx : x < screenWidth) :
    ((ppu.atLine line status).lineView.entryAt x).toNat = ppu.plainEntry line x ∧
      IsEntry (ppu.plainEntry line x) := by
  have hbackground := background_atLine ppu line status hx
  have hentry := isEntry_plainBackground ppu line x
  unfold LineView.entryAt plainEntry
  dsimp only
  rw [sprite_atLine]
  cases hsprite : ppu.plainSprite line x with
  | none => exact ⟨hbackground, hentry⟩
  | some dot =>
    have hdot := opaque_plainSprite settled hsprite
    have hlt := hdot.entry_lt
    have hsum : (0x10 + dot.entry).toNat = 0x10 + dot.entry.toNat := by
      have hbase : (0x10 : UInt8).toNat = 0x10 := rfl
      rw [UInt8.toNat_add, hbase]
      omega
    have hcovers : ((ppu.atLine line status).lineView.backgroundAt x = 0 || !dot.behind) = true ↔
        ppu.plainBackground line x = 0 ∨ dot.behind = false := by
      rw [← hbackground]
      simp [← UInt8.toNat_inj]
    dsimp only
    by_cases covers : ppu.plainBackground line x = 0 ∨ dot.behind = false
    · rw [if_pos covers, if_pos (hcovers.mpr covers)]
      exact ⟨hsum, isEntry_dot hdot⟩
    · rw [if_neg covers, if_neg fun h => covers (hcovers.mp h)]
      exact ⟨hbackground, hentry⟩

theorem pixel_atLine (settled : ppu.Settled) (line : Nat) (status : PpuStatus) {x : Nat}
    (hx : x < screenWidth) :
    (ppu.atLine line status).inkOf ((ppu.atLine line status).lineView.entryAt x) =
      ppu.plainPixel line x := by
  obtain ⟨hentry, hisEntry⟩ := entry_atLine settled line status hx
  have hink := inkOf_eq settled (hentry ▸ hisEntry)
  unfold plainPixel
  rw [← hentry]
  exact hink

/-- The picture after a line. -/
def withLine (ppu : Ppu) (picture : Picture) (line : Nat) : Picture :=
  match picture.rowStart? line with
  | some start => picture.paint start 0 (ppu.plainPixel line) screenWidth
  | none => picture

theorem drawLine_atLine (settled : ppu.Settled) (picture : Picture) (line : Nat)
    (status : PpuStatus) :
    ∃ zeroHit, (ppu.atLine line status).drawLine (some picture) (picture.rowStart? line) =
      (some (ppu.withLine picture line), ppu.atLine line { status with zeroHit }) := by
  unfold drawLine withLine
  cases picture.rowStart? line with
  | none =>
    dsimp only
    split
    · exact ⟨status.zeroHit, rfl⟩
    · exact ⟨_, rfl⟩
  | some start =>
    have same (column : Nat) (h : column < 0 + screenWidth) :=
      pixel_atLine settled line status (Nat.zero_add screenWidth ▸ h)
    have hpaint := picture.paint_congr start 0 same
    dsimp only
    rw [if_neg (by simp), Option.map_some, hpaint]
    exact ⟨_, rfl⟩

/-- One line leads to the next. -/
theorem renderScanline_atLine (settled : ppu.Settled) (rendering : ppu.rendering = true)
    (picture : Picture) {line : Nat} (visible : line < visibleLines) (status : PpuStatus) :
    ∃ status', (ppu.atLine line status).renderScanline line (some picture) =
      (some (ppu.withLine picture line), ppu.atLine (line + 1) status') := by
  obtain ⟨zeroHit, hdraw⟩ := drawLine_atLine settled picture line status
  have hrendering : (ppu.atLine line status).rendering = true := rendering
  unfold renderScanline
  rw [if_neg (by omega)]
  dsimp only [Option.bind_some]
  rw [if_pos hrendering, hdraw]
  dsimp only
  have hnext : (ppu.atLine line { status with zeroHit }).scroll.v.nextRow =
      .ofPlane ppu.scroll.t.planeX (ppu.scroll.t.planeY + (line + 1)) :=
    VideoAddress.nextRow_ofPlane _ _
  rw [hnext]
  exact ⟨_, rfl⟩

/-! ## All lines -/

/-- The picture and the PPU after the lines before `lines`: each line starts and is rendered, and
    nothing else happens. -/
def drawLines (ppu : Ppu) (picture : Picture) : (lines : Nat) → Option Picture × Ppu
  | 0 => (some picture, ppu)
  | line + 1 =>
    ((ppu.drawLines picture line).2.preRender line).renderScanline line
      (ppu.drawLines picture line).1

theorem size_withLine (ppu : Ppu) (picture : Picture) (line : Nat) :
    (ppu.withLine picture line).size = picture.size := by
  unfold withLine
  split
  · exact Picture.size_paint _ _ _ _ _
  · rfl

/-- A line sets the pixels of its row and no others. -/
theorem getElem?_withLine (ppu : Ppu) {picture : Picture}
    (full : screenWidth * screenHeight ≤ picture.size) (line i : Nat) :
    (ppu.withLine picture line)[i]? =
      if i < screenWidth * screenHeight ∧ i / screenWidth + firstShownLine = line then
        some (ppu.plainPixel line (i % screenWidth))
      else picture[i]? := by
  unfold withLine
  by_cases shown : firstShownLine ≤ line ∧ line < firstShownLine + screenHeight
  · rw [Picture.rowStart?_shown full shown.1 shown.2]
    unfold screenWidth screenHeight firstShownLine at *
    dsimp only
    rw [Picture.getElem?_paint _ _ _ _ _ _ (by omega)]
    by_cases inRow : i < 256 * 224 ∧ i / 256 + 8 = line
    · have hcolumn : i - (line - 8) * 256 = i % 256 := by omega
      rw [if_pos (by omega), if_pos inRow, hcolumn]
    · rw [if_neg (by omega), if_neg inRow]
  · rw [Picture.rowStart?_hidden _ (by omega)]
    unfold screenWidth screenHeight firstShownLine at *
    rw [if_neg (by omega)]

/-- The rows of the lines before `lines` are plain, and the other pixels as they were. -/
structure Plain (ppu : Ppu) (before : Picture) (lines : Nat) (picture : Picture) : Prop where
  size_eq : picture.size = before.size
  pixel : ∀ i, picture[i]? =
    if i < screenWidth * screenHeight ∧ i / screenWidth + firstShownLine < lines then
      some (ppu.plainPixel (i / screenWidth + firstShownLine) (i % screenWidth))
    else before[i]?

theorem plain_first (ppu : Ppu) (picture : Picture) : Plain ppu picture 0 picture := by
  refine ⟨rfl, fun i => ?_⟩
  rw [if_neg fun h => absurd h.2 (Nat.not_lt_zero _)]

theorem plain_withLine {before picture : Picture}
    (full : screenWidth * screenHeight ≤ before.size) {line : Nat}
    (plain : Plain ppu before line picture) :
    Plain ppu before (line + 1) (ppu.withLine picture line) := by
  refine ⟨(size_withLine ppu picture line).trans plain.size_eq, fun i => ?_⟩
  rw [getElem?_withLine ppu (plain.size_eq ▸ full), plain.pixel i]
  by_cases shown : i < screenWidth * screenHeight
  · obtain hbefore | hthis | hafter := Nat.lt_trichotomy (i / screenWidth + firstShownLine) line
    · rw [if_neg (by omega), if_pos ⟨shown, hbefore⟩, if_pos ⟨shown, by omega⟩]
    · rw [if_pos ⟨shown, hthis⟩, if_pos ⟨shown, by omega⟩, hthis]
    · rw [if_neg (by omega), if_neg (by omega), if_neg (by omega)]
  · rw [if_neg (by omega), if_neg (by omega), if_neg (by omega)]

/-- When a line has started, the rows before it are plain, and the PPU is as it was at the start
    but for the address, the sprite pixels and the flags. -/
theorem drawLines_plain (settled : ppu.Settled) (rendering : ppu.rendering = true)
    (inside : ppu.scroll.t.coarseY.val ≤ 29) {before : Picture}
    (full : screenWidth * screenHeight ≤ before.size) {lines : Nat}
    (visible : lines ≤ visibleLines) :
    ∃ picture status, (ppu.drawLines before lines).1 = some picture ∧
      Plain ppu before lines picture ∧
      (lines < visibleLines →
        (ppu.drawLines before lines).2.preRender lines = ppu.atLine lines status) := by
  induction lines with
  | zero => exact ⟨before, ppu.status, rfl, plain_first ppu before,
      fun _ => preRender_first rendering inside⟩
  | succ line ih =>
    obtain ⟨picture, status, hpicture, plain, hstarted⟩ := ih (by omega)
    obtain ⟨status', hrender⟩ :=
      renderScanline_atLine settled rendering picture (Nat.lt_of_succ_le visible) status
    have hdrawn : ppu.drawLines before (line + 1) =
        (some (ppu.withLine picture line), ppu.atLine (line + 1) status') := by
      unfold drawLines
      rw [hstarted (Nat.lt_of_succ_le visible), hpicture, hrender]
    rw [hdrawn]
    exact ⟨_, status', rfl, plain_withLine full plain,
      fun later => preRender_atLine rendering (Nat.succ_ne_zero line) later status'⟩

/-! ## The result -/

/-- A picture that is drawn from the first line to the last is the plain one: every line from the
    eighth on that is shown has its plain pixels in its row, and all other pixels of the picture
    stay as they were. -/
theorem draws_plain_picture (reachable : ppu.Reachable)
    (rendering : ppu.mask.background = true ∨ ppu.mask.sprites = true)
    (inside : ppu.scroll.t.coarseY.val ≤ 29) {before : Picture} (full : 256 * 224 ≤ before.size) :
    ∃ picture, (ppu.drawLines before 240).1 = some picture ∧
      picture.size = before.size ∧
      (∀ line x, 8 ≤ line → line ≤ 231 → x ≤ 255 →
        picture[(line - 8) * 256 + x]? = some (ppu.plainPixel line x)) ∧
      ∀ i, 256 * 224 ≤ i → picture[i]? = before[i]? := by
  obtain ⟨picture, _, hpicture, plain, _⟩ := drawLines_plain (settled_of_reachable reachable)
    (rendering_iff.mpr rendering) inside full (Nat.le_refl visibleLines)
  refine ⟨picture, hpicture, plain.size_eq, fun line x hfrom hto hx => ?_, fun i hi => ?_⟩
  · have hcolumn : ((line - 8) * 256 + x) % 256 = x := by omega
    have hline : ((line - 8) * 256 + x) / 256 + 8 = line := by omega
    rw [plain.pixel]
    unfold screenWidth screenHeight firstShownLine visibleLines
    rw [hcolumn, hline, if_pos (by omega)]
  · rw [plain.pixel, if_neg fun inside => absurd inside.1 (Nat.not_lt.mpr hi)]

/-- A PPU with one dot in tile 1, which is at the left of the second row, in white. Two sprites have
    that tile on the same line, in orange, one at the left edge and one eight columns from it. The
    mask shows the background and sprites, cuts off sprites at the left, and emphasizes red. -/
def withDots : Ppu :=
  let tiles := (({} : Ppu).writeByte 0x0010 0x80).writeByte 0x2020 1
  let colored := (tiles.writeByte 0x3F01 0x30).writeByte 0x3F11 0x16
  let cutOff := (colored.oamWrite 0 7).oamWrite 1 1
  let shown := ((cutOff.oamWrite 4 7).oamWrite 5 1).oamWrite 7 8
  shown.writeRegister .mask 0x3A

/-- The dot of the background is the first pixel of the picture, as the sprite over it is cut off.
    The other sprite shows its dot, and elsewhere there is the backdrop, all of it tinted. -/
theorem draws_plain_picture_of_dots :
    withDots.Reachable ∧ (withDots.mask.background = true ∨ withDots.mask.sprites = true) ∧
      withDots.scroll.t.coarseY.val ≤ 29 ∧ 256 * 224 ≤ Picture.blank.size ∧
      ∃ picture, (withDots.drawLines .blank 240).1 = some picture ∧
        picture[0]? = some 0xFF7E7EFE ∧ picture[1]? = some 0xFF3E3EBE ∧
        picture[8]? = some 0xFF001CFC := by
  have blank : ({} : Ppu).Reachable := .refl
  have tiles := (blank.next (.writeByte _ 0x0010 0x80)).next (.writeByte _ 0x2020 1)
  have colored := (tiles.next (.writeByte _ 0x3F01 0x30)).next (.writeByte _ 0x3F11 0x16)
  have placed := ((((colored.next (.oamWrite _ 0 7)).next (.oamWrite _ 1 1)).next
    (.oamWrite _ 4 7)).next (.oamWrite _ 5 1)).next (.oamWrite _ 7 8)
  have reachable : withDots.Reachable := placed.next (.step (.writeRegister _ .mask 0x3A))
  have full : 256 * 224 ≤ Picture.blank.size := Nat.le_of_eq Array.size_replicate.symm
  obtain ⟨picture, hpicture, _, hpixels, _⟩ :=
    draws_plain_picture reachable (.inl rfl) (by decide) full
  have hdot : withDots.plainPixel 8 0 = 0xFF7E7EFE := by decide +kernel
  have hbackdrop : withDots.plainPixel 8 1 = 0xFF3E3EBE := by decide +kernel
  have hsprite : withDots.plainPixel 8 8 = 0xFF001CFC := by decide +kernel
  have hfirst := hpixels 8 0 (by decide) (by decide) (by decide)
  have hsecond := hpixels 8 1 (by decide) (by decide) (by decide)
  have hninth := hpixels 8 8 (by decide) (by decide) (by decide)
  rw [hdot] at hfirst
  rw [hbackdrop] at hsecond
  rw [hsprite] at hninth
  exact ⟨reachable, .inl rfl, by decide, full, picture, hpicture, hfirst, hsecond, hninth⟩

end Ppu
end Nes
