/-
  What sprite evaluation prepares, column by column.

  `spriteColor` says which colour a sprite has in a row and a column, from the four bytes that
  sprite memory has of it (`spriteByte`) and from the size and the table that are selected, and
  `Covers` whether it puts a pixel into a column of a line. The prepared line shows in each column
  the first of the sprites that cover it (`cell_evaluateSprites`): a dot is only put where there is
  none yet, so a row of columns (`cell_placeColumns`) and a row of sprites (`cell_foldl`) leave what
  was there and add the first dot that comes.

  Sprites are looked at in order until eight are found. In an ordered list, those are the ones
  before which there are fewer than eight (`take_filter`), so no loop is left in `Drawn`.
-/
import Mathlib.Tactic.ByContra
import Nes.Proofs.Ppu.Reachable

namespace Nes

/-! ## The first of an ordered list -/

/-- Of an ordered list, the first `k` members with a property are those with fewer than `k` such
    members before them. -/
theorem take_filter {n : Nat} (P : Fin n → Bool) {list : List (Fin n)}
    (sorted : list.Pairwise (· < ·)) (k : Nat) :
    (list.filter P).take k =
      list.filter fun i => P i && decide (list.countP (fun j => decide (j < i) && P j) < k) := by
  induction list generalizing k with
  | nil => exact List.take_nil
  | cons first rest ih =>
    obtain ⟨hbefore, hsorted⟩ := List.pairwise_cons.mp sorted
    -- nothing is before the first, and the first is before all others
    have hnone : (first :: rest).countP (fun j => decide (j < first) && P j) = 0 := by
      refine List.countP_eq_zero.mpr fun j hj => ?_
      rcases List.mem_cons.mp hj with hfirst | hrest
      · simp [hfirst]
      · have hlater := hbefore j hrest
        simp [Fin.not_lt.mpr (Fin.le_of_lt hlater)]
    have hmore : ∀ i ∈ rest, (first :: rest).countP (fun j => decide (j < i) && P j) =
        rest.countP (fun j => decide (j < i) && P j) + if P first then 1 else 0 := by
      intro i hi
      rw [List.countP_cons, decide_eq_true (hbefore i hi), Bool.true_and]
    cases hfirst : P first with
    | false =>
      rw [List.filter_cons_of_neg (by simp [hfirst]), List.filter_cons_of_neg (by simp [hfirst]),
        ih hsorted k]
      refine List.filter_congr fun i hi => ?_
      rw [hmore i hi, hfirst]
      rfl
    | true =>
      cases k with
      | zero => simp
      | succ k =>
        rw [List.filter_cons_of_pos hfirst, List.take_succ_cons, ih hsorted k,
          List.filter_cons_of_pos (by simp [hfirst, hnone])]
        congr 1
        refine List.filter_congr fun i hi => ?_
        rw [hmore i hi, hfirst]
        simp

/-- Among the members with a property, the first for which there is a result. -/
theorem findSome?_filter {A B : Type} (P : A → Bool) (f : A → Option B) (list : List A) :
    (list.filter P).findSome? f = (list.find? fun a => P a && (f a).isSome).bind f := by
  induction list with
  | nil => rfl
  | cons first rest ih =>
    rw [List.filter_cons, List.find?_cons]
    cases hfirst : P first with
    | false => exact ih
    | true =>
      rw [if_pos rfl, List.findSome?_cons, Bool.true_and, ih]
      cases hf : f first with
      | none => rfl
      | some result => exact hf.symm

/-! ## Cells -/

/-- A dot as one byte: present (bit 7), behind the background (6), of the first sprite (5), and
    palette and colour in the low four bits. -/
def SpriteDot.toByte (dot : SpriteDot) : UInt8 :=
  0x80 ||| (if dot.behind then 0x40 else 0) ||| (if dot.first then 0x20 else 0) ||| dot.entry

/-- A cell as one byte: zero where there is no dot. -/
def cellByte : Option SpriteDot → UInt8
  | none => 0
  | some dot => dot.toByte

namespace SpriteLine

/-- The cell in column `x`. -/
def cell (line : SpriteLine) (x : Fin 256) : Option SpriteDot := line.cells.get x

theorem getElem?_cells (line : SpriteLine) (x : Fin 256) :
    line.cells[x.val]? = some (line.cell x) :=
  Vector.getElem?_eq_getElem x.isLt

theorem cell_empty (x : Fin 256) : ({} : SpriteLine).cell x = none :=
  Vector.getElem_replicate x.isLt

/-- A dot goes into a cell that is empty, and changes no other. -/
theorem cell_place (line : SpriteLine) (position : Nat) (dot : SpriteDot) (x : Fin 256) :
    (line.place position dot).cell x =
      (line.cell x).or (if x.val = position then some dot else none) := by
  unfold place cell
  by_cases same : x.val = position
  · subst same
    have hcell : line.cells[x.val] = line.cells.get x := rfl
    rw [dif_pos x.isLt, if_pos rfl, hcell]
    cases hold : line.cells.get x with
    | none => exact Vector.getElem_set_self x.isLt
    | some old => exact hold
  · rw [if_neg same, Option.or_none]
    split
    · next inside =>
      split
      · rfl
      · exact Vector.getElem_set_ne inside x.isLt (Ne.symm same)
    · rfl

/-- The dot of a sprite's column, if it is not transparent there. -/
def dotOf (s : Sprite) (first : Bool) (lo hi : UInt8) (col : Nat) : Option SpriteDot :=
  let color := patternColor lo hi (s.patternBit col)
  if color = 0 then none
  else some
    { entry := (s.attributes &&& 3) * 4 + color, behind := bit s.attributes 5, first }

theorem cell_placeColumns (line : SpriteLine) (s : Sprite) (first : Bool) (lo hi : UInt8)
    (col count : Nat) (x : Fin 256) :
    (line.placeColumns s first lo hi col count).cell x =
      (line.cell x).or (if s.x.toNat + col ≤ x ∧ x < s.x.toNat + col + count then
        dotOf s first lo hi (x - s.x.toNat) else none) := by
  induction count generalizing line col with
  | zero =>
    rw [placeColumns, if_neg (by omega), Option.or_none]
  | succ count ih =>
    have hplaced : (if patternColor lo hi (s.patternBit col) = 0 then line
        else line.place (s.x.toNat + col)
          { entry := (s.attributes &&& 3) * 4 + patternColor lo hi (s.patternBit col)
            behind := bit s.attributes 5
            first }).cell x =
        (line.cell x).or (if x.val = s.x.toNat + col then dotOf s first lo hi col else none) := by
      unfold dotOf
      dsimp only
      split
      · rw [ite_self, Option.or_none]
      · exact cell_place line _ _ x
    unfold placeColumns
    dsimp only
    rw [ih, hplaced, Option.or_assoc]
    congr 1
    by_cases hfirst : x.val = s.x.toNat + col
    · have hcol : x.val - s.x.toNat = col := by omega
      rw [if_pos hfirst, if_neg (by omega), if_pos (by omega), Option.or_none, hcol]
    · rw [if_neg hfirst, Option.none_or]
      by_cases hlater : s.x.toNat + (col + 1) ≤ x ∧ x < s.x.toNat + (col + 1) + count
      · rw [if_pos hlater, if_pos (by omega)]
      · rw [if_neg hlater, if_neg (by omega)]

/-- The line says that the first sprite has a pixel in it only if it has one. -/
def Backed (line : SpriteLine) : Prop :=
  line.hasFirst = true → ∃ x dot, line.cell x = some dot ∧ dot.first = true

theorem backed_empty : ({} : SpriteLine).Backed := nofun

theorem backed_place {line : SpriteLine} (h : line.Backed) (position : Nat) (dot : SpriteDot) :
    (line.place position dot).Backed := by
  intro hmark
  have hold : line.hasFirst = true →
      ∃ x dot', (line.place position dot).cell x = some dot' ∧ dot'.first = true := by
    intro hbefore
    obtain ⟨x, old, hcell, hfirst⟩ := h hbefore
    refine ⟨x, old, ?_, hfirst⟩
    rw [cell_place, hcell]
    rfl
  cases hbefore : line.hasFirst with
  | true => exact hold hbefore
  | false =>
    -- the mark is new, so the dot is, too
    unfold place at hmark
    split at hmark
    · next inside =>
      split at hmark
      · rw [hbefore] at hmark
        cases hmark
      · next hempty =>
        have hnone : line.cell ⟨position, inside⟩ = none := hempty
        dsimp only at hmark
        rw [hbefore, Bool.false_or] at hmark
        refine ⟨⟨position, inside⟩, dot, ?_, hmark⟩
        rw [cell_place, hnone, if_pos rfl]
        rfl
    · rw [hbefore] at hmark
      cases hmark

end SpriteLine

namespace Ppu

/-! ## What a sprite shows -/

/-- The colour of a pixel of a pattern: two bits, one from each of the two planes of its row. -/
def patternPixel (ppu : Ppu) (table tile row col : Nat) : Nat :=
  let plane := table + 16 * tile
  2 * (bit (ppu.readByte (plane + 8 + row)) (7 - col)).toNat +
    (bit (ppu.readByte (plane + row)) (7 - col)).toNat

/-- Byte `k` of sprite number `i` in sprite memory: its line, its tile, its attributes and its
    column. -/
def spriteByte (ppu : Ppu) (i : Fin 64) (k : Nat) : UInt8 := ppu.oam[4 * i.val + k]?.getD 0

/-- How many rows a sprite has. -/
def spriteRows (ppu : Ppu) : Nat := if ppu.control.tallSprites then 16 else 8

/-- The colour of a sprite in a row and a column, counted from where its top left corner is on the
    screen. A tall sprite has its number's even pattern above the odd one, both of the table that
    the low bit of the number selects. -/
def spriteColor (ppu : Ppu) (i : Fin 64) (row col : Nat) : Nat :=
  let tile := (ppu.spriteByte i 1).toNat
  let row := if bit (ppu.spriteByte i 2) 7 then ppu.spriteRows - 1 - row else row
  let col := if bit (ppu.spriteByte i 2) 6 then 7 - col else col
  if ppu.control.tallSprites then
    ppu.patternPixel (0x1000 * (tile % 2)) (tile - tile % 2 + row / 8) (row % 8) col
  else ppu.patternPixel (if ppu.control.spriteTable then 0x1000 else 0) tile row col

/-- A sprite is in range of a line: `0 ≤ line - y < height`. -/
def InRange (ppu : Ppu) (line : Nat) (i : Fin 64) : Prop :=
  (ppu.spriteByte i 0).toNat ≤ line ∧ line - (ppu.spriteByte i 0).toNat < ppu.spriteRows

instance (ppu : Ppu) (line : Nat) (i : Fin 64) : Decidable (ppu.InRange line i) :=
  inferInstanceAs (Decidable (_ ∧ _))

/-- A sprite is one of the first eight in range: fewer than eight before it are. -/
def Drawn (ppu : Ppu) (line : Nat) (i : Fin 64) : Prop :=
  ppu.InRange line i ∧ (List.finRange 64).countP (fun j => j < i ∧ ppu.InRange line j) < 8

instance (ppu : Ppu) (line : Nat) (i : Fin 64) : Decidable (ppu.Drawn line i) :=
  inferInstanceAs (Decidable (_ ∧ _))

/-- A sprite on the line after `line` has an opaque pixel in column `x`. -/
def Shows (ppu : Ppu) (line : Nat) (x : Fin 256) (i : Fin 64) : Prop :=
  ((ppu.spriteByte i 3).toNat ≤ x ∧ x < (ppu.spriteByte i 3).toNat + 8) ∧
    ppu.spriteColor i (line - (ppu.spriteByte i 0).toNat) (x - (ppu.spriteByte i 3).toNat) ≠ 0

instance (ppu : Ppu) (line : Nat) (x : Fin 256) (i : Fin 64) : Decidable (ppu.Shows line x i) :=
  inferInstanceAs (Decidable (_ ∧ _))

/-- One of the first eight sprites in range has an opaque pixel in column `x`. -/
def Covers (ppu : Ppu) (line : Nat) (x : Fin 256) (i : Fin 64) : Prop :=
  ppu.Drawn line i ∧ ppu.Shows line x i

instance (ppu : Ppu) (line : Nat) (x : Fin 256) (i : Fin 64) : Decidable (ppu.Covers line x i) :=
  inferInstanceAs (Decidable (_ ∧ _))

/-- The byte of that pixel: present, behind the background, of the first sprite, palette, colour. -/
def coverByte (ppu : Ppu) (line : Nat) (x : Fin 256) (i : Fin 64) : Nat :=
  0x80 + (if bit (ppu.spriteByte i 2) 5 then 0x40 else 0) + (if i.val = 0 then 0x20 else 0) +
    4 * ((ppu.spriteByte i 2).toNat % 4) +
    ppu.spriteColor i (line - (ppu.spriteByte i 0).toNat) (x - (ppu.spriteByte i 3).toNat)

variable {ppu : Ppu} {line : Nat} {x : Fin 256} {i : Fin 64}

/-- The chip takes a sprite from these bytes. -/
theorem sprite_eq (ppu : Ppu) (i : Fin 64) :
    ppu.sprite i =
      ⟨ppu.spriteByte i 0, ppu.spriteByte i 1, ppu.spriteByte i 2, ppu.spriteByte i 3⟩ := by
  have hbyte {k : Nat} (h : k < 4) : ppu.spriteByte i k = ppu.oam[4 * i.val + k] := by
    unfold spriteByte
    rw [Vector.getElem?_eq_getElem (by omega), Option.getD_some]
  rw [hbyte (by decide), hbyte (by decide), hbyte (by decide), hbyte (by decide)]
  rfl

theorem inRange_iff : ppu.InRange line i ↔
    (ppu.sprite i).y.toNat ≤ line ∧
      line - (ppu.sprite i).y.toNat < ppu.control.spriteHeight := by
  rw [sprite_eq]
  exact Iff.rfl

/-- The bits that are fetched for a column of a sprite are those of its pattern there. -/
theorem toNat_fetched (ppu : Ppu) (i : Fin 64) (line : Nat) {col : Nat} (hcol : col < 8) :
    let s := ppu.sprite i
    let addr := s.patternAddress ppu.control (s.patternRow ppu.control.spriteHeight line)
    (patternColor (ppu.readByte addr) (ppu.readByte (addr + 8)) (s.patternBit col)).toNat =
      ppu.spriteColor i (line - (ppu.spriteByte i 0).toNat) col := by
  intro s addr
  have hbit : s.patternBit col = 7 - if bit (ppu.spriteByte i 2) 6 then 7 - col else col := by
    unfold s Sprite.patternBit
    rw [sprite_eq]
    split <;> omega
  have hrow : s.patternRow ppu.control.spriteHeight line =
      if bit (ppu.spriteByte i 2) 7 then ppu.spriteRows - 1 - (line - (ppu.spriteByte i 0).toNat)
      else line - (ppu.spriteByte i 0).toNat := by
    unfold s
    rw [sprite_eq]
    rfl
  unfold addr
  rw [toNat_patternColor, hbit, hrow]
  unfold spriteColor Sprite.patternAddress Control.spritePatterns
  dsimp only
  generalize (if bit (ppu.spriteByte i 2) 7 then
    ppu.spriteRows - 1 - (line - (ppu.spriteByte i 0).toNat)
    else line - (ppu.spriteByte i 0).toNat) = row
  generalize (if bit (ppu.spriteByte i 2) 6 then 7 - col else col) = column
  have htile : s.tile = ppu.spriteByte i 1 := by
    unfold s
    rw [sprite_eq]
  rw [htile]
  generalize (ppu.spriteByte i 1).toNat = tile
  split
  · have hplane : tile % 2 * 0x1000 + (tile / 2 * 2 + row / 8) * 16 + row % 8 =
        0x1000 * (tile % 2) + 16 * (tile - tile % 2 + row / 8) + row % 8 := by omega
    unfold patternPixel
    rw [hplane, Nat.add_right_comm _ (row % 8) 8]
  · unfold patternPixel
    rw [Nat.mul_comm tile 16, Nat.add_right_comm _ row 8]

/-- The dot of a sprite in a column of the screen. -/
def dotAt (ppu : Ppu) (line : Nat) (x : Fin 256) (i : Fin 64) : Option SpriteDot :=
  let s := ppu.sprite i
  let addr := s.patternAddress ppu.control (s.patternRow ppu.control.spriteHeight line)
  if s.x.toNat ≤ x ∧ x < s.x.toNat + 8 then
    SpriteLine.dotOf s (i.val == 0) (ppu.readByte addr) (ppu.readByte (addr + 8)) (x - s.x.toNat)
  else none

theorem isFirst_eq (i : Fin 64) : (i == 0) = (i.val == 0) := by
  rw [Bool.eq_iff_iff, beq_iff_eq, beq_iff_eq, Fin.ext_iff]
  rfl

theorem cell_placeSprite (ppu : Ppu) (line : Nat) (cells : SpriteLine) (i : Fin 64)
    (x : Fin 256) :
    (ppu.placeSprite line cells i).cell x = (cells.cell x).or (ppu.dotAt line x i) := by
  unfold placeSprite dotAt
  dsimp only
  rw [SpriteLine.cell_placeColumns, Nat.add_zero, isFirst_eq]

/-- Sprites that are placed one after the other show the first dot that comes. -/
theorem cell_foldl (ppu : Ppu) (line : Nat) (cells : SpriteLine) (found : List (Fin 64))
    (x : Fin 256) :
    (found.foldl (ppu.placeSprite line) cells).cell x =
      (cells.cell x).or (found.findSome? (ppu.dotAt line x)) := by
  induction found generalizing cells with
  | nil => exact Option.or_none.symm
  | cons i found ih =>
    rw [List.foldl_cons, ih, cell_placeSprite, Option.or_assoc, List.findSome?_cons]
    cases ppu.dotAt line x i <;> rfl

theorem onLine_eq (ppu : Ppu) (line : Nat) (i : Fin 64) :
    (ppu.sprite i).onLine ppu.control.spriteHeight line = decide (ppu.InRange line i) := by
  unfold Sprite.onLine
  rw [← Bool.decide_and]
  exact decide_eq_decide.mpr (by rw [inRange_iff]; omega)

/-- The sprites that are placed are those of the first eight in range. -/
theorem take_spritesOn (ppu : Ppu) (line : Nat) :
    (ppu.spritesOn line).take spritesPerLine =
      (List.finRange 64).filter fun i => decide (ppu.Drawn line i) := by
  have hsorted : (List.finRange 64).Pairwise (· < ·) := List.pairwise_lt_finRange 64
  unfold spritesOn
  simp only [onLine_eq]
  rw [take_filter _ hsorted]
  refine List.filter_congr fun i _ => ?_
  rw [← Bool.decide_and]
  refine decide_eq_decide.mpr (and_congr_right fun _ => ?_)
  simp only [Bool.decide_and]
  rfl

/-- In a column where a sprite shows, its dot has the colour of its pattern; elsewhere it has
    none. -/
theorem dotAt_eq (ppu : Ppu) (line : Nat) (x : Fin 256) (i : Fin 64) :
    ppu.dotAt line x i =
      if ppu.Shows line x i then
        some
          { entry := (ppu.spriteByte i 2 &&& 3) * 4 + UInt8.ofNat (ppu.spriteColor i
              (line - (ppu.spriteByte i 0).toNat) (x - (ppu.spriteByte i 3).toNat))
            behind := bit (ppu.spriteByte i 2) 5
            first := i.val == 0 }
      else none := by
  have hcolumn : (ppu.sprite i).x = ppu.spriteByte i 3 := by rw [sprite_eq]
  have hattributes : (ppu.sprite i).attributes = ppu.spriteByte i 2 := by rw [sprite_eq]
  unfold dotAt SpriteLine.dotOf
  dsimp only
  rw [hcolumn, hattributes]
  by_cases hcolumns : (ppu.spriteByte i 3).toNat ≤ x ∧ x < (ppu.spriteByte i 3).toNat + 8
  · have hcol : x.val - (ppu.spriteByte i 3).toNat < 8 := by omega
    have hcolor := toNat_fetched ppu i line hcol
    dsimp only at hcolor
    rw [if_pos hcolumns, ← hcolor, UInt8.ofNat_toNat]
    by_cases shows : ppu.Shows line x i
    · rw [if_pos shows, if_neg]
      intro hzero
      rw [hzero] at hcolor
      exact shows.2 hcolor.symm
    · rw [if_neg shows, if_pos]
      by_contra hsome
      refine shows ⟨hcolumns, fun hzero => hsome ?_⟩
      exact UInt8.toNat_inj.mp (hcolor.trans hzero)
  · rw [if_neg hcolumns, if_neg fun shows => hcolumns shows.1]

/-- A sprite that is drawn has a dot in the columns that it covers. -/
theorem covers_eq (ppu : Ppu) (line : Nat) (x : Fin 256) (i : Fin 64) :
    (decide (ppu.Drawn line i) && (ppu.dotAt line x i).isSome) = decide (ppu.Covers line x i) := by
  have hshows : (ppu.dotAt line x i).isSome = decide (ppu.Shows line x i) := by
    rw [dotAt_eq]
    split
    · next shows => exact (decide_eq_true shows).symm
    · next hides => exact (decide_eq_false hides).symm
  rw [hshows]
  exact (Bool.decide_and _ _).symm

theorem spriteColor_lt (ppu : Ppu) (i : Fin 64) (row col : Nat) :
    ppu.spriteColor i row col < 4 := by
  have hpixel (table tile row col : Nat) : ppu.patternPixel table tile row col < 4 := by
    have hhi := Bool.toNat_le (bit (ppu.readByte (table + 16 * tile + 8 + row)) (7 - col))
    have hlo := Bool.toNat_le (bit (ppu.readByte (table + 16 * tile + row)) (7 - col))
    unfold patternPixel
    dsimp only
    omega
  unfold spriteColor
  dsimp only
  split
  · exact hpixel _ _ _ _
  · exact hpixel _ _ _ _

end Ppu

/-! ## Dots as bytes -/

/-- The upper and the lower half of a byte, put together. -/
theorem toNat_or_nibble {high low : UInt8} (hhigh : high.toNat % 16 = 0) (hlow : low.toNat < 16) :
    (high ||| low).toNat = high.toNat + low.toNat := by
  have hsplit : high.toNat = 2 ^ 4 * (high.toNat / 16) := by omega
  rw [UInt8.toNat_or, hsplit]
  exact (Nat.two_pow_add_eq_or_of_lt hlow _).symm

theorem SpriteDot.toNat_toByte {dot : SpriteDot} (h : dot.entry.toNat < 16) :
    dot.toByte.toNat =
      0x80 + (if dot.behind then 0x40 else 0) + (if dot.first then 0x20 else 0) +
        dot.entry.toNat := by
  unfold toByte
  cases dot.behind with
  | false => cases dot.first <;> exact toNat_or_nibble (by decide) h
  | true => cases dot.first <;> exact toNat_or_nibble (by decide) h

/-- Bit 5 of a cell's byte says that its dot is of the first sprite. -/
theorem bit_cellByte {cell : Option SpriteDot}
    (h : ∀ dot, cell = some dot → dot.entry.toNat < 16) :
    bit (cellByte cell) 5 = true ↔ ∃ dot, cell = some dot ∧ dot.first = true := by
  cases cell with
  | none => exact iff_of_false (by decide) nofun
  | some dot =>
    have hentry := h dot rfl
    have hbyte : (cellByte (some dot)).toNat = _ := SpriteDot.toNat_toByte hentry
    simp only [Option.some.injEq, exists_eq_left']
    unfold bit
    rw [hbyte, Nat.testBit_eq_decide_div_mod_eq, decide_eq_true_eq]
    cases dot.behind <;> cases dot.first <;> simp <;> omega

/-- The byte of a sprite's pixel, from the sprite's attributes and the colour. -/
theorem toNat_cellByte {attributes color : UInt8} (h : color.toNat < 4) (first : Bool) :
    (cellByte (some
      { entry := (attributes &&& 3) * 4 + color, behind := bit attributes 5, first })).toNat =
      0x80 + (if bit attributes 5 then 0x40 else 0) + (if first then 0x20 else 0) +
        4 * (attributes.toNat % 4) + color.toNat := by
  have hpalette := spritePalette_lt attributes
  have hentry := toNat_palette_color hpalette h
  generalize bit attributes 5 = behind
  have hlow : (SpriteDot.mk ((attributes &&& 3) * 4 + color) behind first).entry.toNat < 16 := by
    dsimp only
    omega
  refine (SpriteDot.toNat_toByte hlow).trans ?_
  dsimp only
  rw [hentry, toNat_spritePalette]
  omega

namespace Ppu

variable (ppu : Ppu) (line : Nat) (x : Fin 256)

/-- The prepared line shows the first sprite that covers a column. -/
theorem cell_evaluateSprites :
    (ppu.evaluateSprites line).sprites.cell x =
      ((List.finRange 64).find? (ppu.Covers line x)).bind (ppu.dotAt line x) := by
  calc (ppu.evaluateSprites line).sprites.cell x
      = ((ppu.spritesOn line).take spritesPerLine).findSome? (ppu.dotAt line x) := by
        have hfold := cell_foldl ppu line {} ((ppu.spritesOn line).take spritesPerLine) x
        rw [SpriteLine.cell_empty, Option.none_or] at hfold
        exact hfold
    _ = _ := by
        rw [take_spritesOn, findSome?_filter]
        simp only [covers_eq]

/-- The byte of a dot where a sprite shows. -/
theorem toNat_cellByte_dotAt {i : Fin 64} (shows : ppu.Shows line x i) :
    (cellByte (ppu.dotAt line x i)).toNat = ppu.coverByte line x i := by
  have hlt := spriteColor_lt ppu i (line - (ppu.spriteByte i 0).toNat)
    (x - (ppu.spriteByte i 3).toNat)
  rw [dotAt_eq, if_pos shows]
  unfold coverByte
  generalize ppu.spriteColor i _ _ = color at hlt ⊢
  have hbyte : (UInt8.ofNat color).toNat = color := by
    rw [UInt8.toNat_ofNat']
    omega
  rw [toNat_cellByte (by omega), hbyte]
  simp only [beq_iff_eq]

theorem hasFirst_evaluateSprites :
    (ppu.evaluateSprites line).sprites.hasFirst = true ↔
      ∃ x dot, (ppu.evaluateSprites line).sprites.cell x = some dot ∧ dot.first = true := by
  constructor
  · exact evaluateSprites_keeps (P := SpriteLine.Backed)
      (fun x _ h _ => SpriteLine.backed_place h x _) SpriteLine.backed_empty ppu line
  · rintro ⟨x, dot, hcell, hfirst⟩
    refine marked_evaluateSprites ppu line x.val dot ?_ hfirst
    rw [SpriteLine.getElem?_cells, hcell]

theorem length_spritesOn :
    (ppu.spritesOn line).length = (List.finRange 64).countP (ppu.InRange line) := by
  unfold spritesOn
  simp only [onLine_eq]
  exact List.countP_eq_length_filter.symm

/-- Sprite evaluation in full. In each column the line has the byte of the first sprite, among the
    first eight in range, that has an opaque pixel there, and zero if there is none. The mark is set
    if and only if one of the bytes is of the first sprite, and the overflow flag if it was set or
    there are more than eight sprites in range. Nothing else of the PPU changes. -/
theorem evaluates_sprites :
    (∀ x, (cellByte ((ppu.evaluateSprites line).sprites.cell x)).toNat =
      ((List.finRange 64).find? (ppu.Covers line x)).elim 0 (ppu.coverByte line x)) ∧
    ((ppu.evaluateSprites line).sprites.hasFirst = true ↔
      ∃ x, bit (cellByte ((ppu.evaluateSprites line).sprites.cell x)) 5 = true) ∧
    ((ppu.evaluateSprites line).status.overflow = true ↔
      ppu.status.overflow = true ∨ 8 < (List.finRange 64).countP (ppu.InRange line)) ∧
    ppu.evaluateSprites line =
      { ppu with
        sprites := (ppu.evaluateSprites line).sprites
        status :=
          { ppu.status with overflow := (ppu.evaluateSprites line).status.overflow } } := by
  refine ⟨fun x => ?_, ?_, ?_, rfl⟩
  · rw [cell_evaluateSprites]
    cases hfound : (List.finRange 64).find? (ppu.Covers line x) with
    | none => rfl
    | some i =>
      have covers : ppu.Covers line x i := by simpa using List.find?_some hfound
      exact toNat_cellByte_dotAt ppu line x covers.2
  · have hentry (x : Fin 256) (dot : SpriteDot)
        (hcell : (ppu.evaluateSprites line).sprites.cell x = some dot) : dot.entry.toNat < 16 := by
      refine (opaque_evaluateSprites ppu line x.val dot ?_).entry_lt
      rw [SpriteLine.getElem?_cells, hcell]
    rw [hasFirst_evaluateSprites]
    exact exists_congr fun x => (bit_cellByte (hentry x)).symm
  · rw [← length_spritesOn]
    unfold evaluateSprites spritesPerLine
    simp

end Ppu
end Nes
