/-
  Rendering with and without a picture.

  A line that is not drawn is only looked at if the first sprite can still be hit on it, and
  `hasFirst` is what tells whether that sprite has a pixel there. So both ways come out the same
  only as long as the mark is right: where a cell belongs to the first sprite, it is set. Every
  operation of the PPU keeps that (`marked_step`), and with it a line leaves the PPU in the same
  state whatever it is drawn into (`renderScanline_snd_eq`).

  Sprite evaluation puts opaque pixels into an empty line and does nothing else to it, so it gives
  every property that such a pixel keeps (`evaluateSprites_keeps`).
-/
import Mathlib.Tactic.ByContra
import Nes.Proofs.Console.Steps

namespace Nes

/-! ## Opaque pixels -/

/-- A pixel of one of the four sprite palettes, and not transparent. -/
structure SpriteDot.Opaque (dot : SpriteDot) : Prop where
  entry_lt : dot.entry.toNat < 16
  color : dot.entry.toNat % 4 ≠ 0

/-- The two bits of a pixel, as a number. -/
theorem toNat_patternColor (lo hi : UInt8) (position : Nat) :
    (patternColor lo hi position).toNat =
      2 * (bit hi position).toNat + (bit lo position).toNat := by
  unfold patternColor
  cases bit hi position with
  | false => cases bit lo position <;> rfl
  | true => cases bit lo position <;> rfl

theorem patternColor_lt (lo hi : UInt8) (position : Nat) :
    (patternColor lo hi position).toNat < 4 := by
  have hhi := Bool.toNat_le (bit hi position)
  have hlo := Bool.toNat_le (bit lo position)
  rw [toNat_patternColor]
  omega

/-- The palette number of a sprite is in the lowest two bits of its attributes. -/
theorem toNat_spritePalette (attributes : UInt8) :
    (attributes &&& 3).toNat = attributes.toNat % 4 := by
  rw [UInt8.toNat_and]
  exact Nat.and_two_pow_sub_one_eq_mod _ 2

theorem spritePalette_lt (attributes : UInt8) : (attributes &&& 3).toNat < 4 := by
  rw [toNat_spritePalette]
  exact Nat.mod_lt _ (by decide)

/-- Palette number and colour, put together. -/
theorem toNat_palette_color {palette color : UInt8} (hpalette : palette.toNat < 4)
    (hcolor : color.toNat < 4) : (palette * 4 + color).toNat = palette.toNat * 4 + color.toNat := by
  have hfour : (4 : UInt8).toNat = 4 := rfl
  rw [UInt8.toNat_add, UInt8.toNat_mul, hfour]
  omega

namespace SpriteLine

/-- What putting in an opaque pixel keeps, putting in the columns of a sprite keeps. -/
theorem placeColumns_keeps {P : SpriteLine → Prop}
    (placed : ∀ {line : SpriteLine} (x : Nat) {dot : SpriteDot},
      P line → dot.Opaque → P (line.place x dot))
    {line : SpriteLine} (h : P line) (s : Sprite) (first : Bool) (lo hi : UInt8)
    (col count : Nat) : P (line.placeColumns s first lo hi col count) := by
  induction count generalizing line col with
  | zero => exact h
  | succ count ih =>
    unfold placeColumns
    dsimp only
    split
    · exact ih h (col + 1)
    · next hcolor =>
      refine ih (placed _ h ?_) (col + 1)
      have hpalette := spritePalette_lt s.attributes
      have hfew := patternColor_lt lo hi (s.patternBit col)
      have hsome : (patternColor lo hi (s.patternBit col)).toNat ≠ 0 := fun hzero =>
        hcolor (UInt8.toNat_inj.mp hzero)
      have hentry := toNat_palette_color hpalette hfew
      constructor
      · rw [hentry]
        omega
      · rw [hentry]
        omega

/-! ## The mark -/

/-- If the first sprite has a pixel in the line, the line says so. -/
def Marked (line : SpriteLine) : Prop :=
  ∀ (x : Nat) (dot : SpriteDot), line.cells[x]? = some (some dot) → dot.first = true →
    line.hasFirst = true

theorem marked_empty : ({} : SpriteLine).Marked := by
  intro x dot hx
  rw [Vector.getElem?_replicate] at hx
  split at hx
  · cases hx
  · cases hx

theorem marked_place {line : SpriteLine} (h : line.Marked) (x : Nat) (dot : SpriteDot) :
    (line.place x dot).Marked := by
  unfold place
  split
  · split
    · exact h
    · intro y dot' hy hfirst
      dsimp only at hy ⊢
      rw [Vector.getElem?_set] at hy
      split at hy
      · cases hy
        rw [hfirst, Bool.or_true]
      · rw [h y dot' hy hfirst, Bool.true_or]
  · exact h

end SpriteLine

namespace Ppu

/-! ## Sprite evaluation -/

/-- What holds of an empty line, and putting in an opaque pixel keeps, holds of a prepared line. -/
theorem evaluateSprites_keeps {P : SpriteLine → Prop}
    (placed : ∀ {line : SpriteLine} (x : Nat) {dot : SpriteDot},
      P line → dot.Opaque → P (line.place x dot))
    (empty : P {}) (ppu : Ppu) (line : Nat) : P (ppu.evaluateSprites line).sprites := by
  refine List.foldlRecOn (motive := P) _ (ppu.placeSprite line) empty ?_
  intro cells h i _
  exact SpriteLine.placeColumns_keeps placed h _ _ _ _ _ _

theorem marked_evaluateSprites (ppu : Ppu) (line : Nat) :
    (ppu.evaluateSprites line).sprites.Marked :=
  evaluateSprites_keeps (P := SpriteLine.Marked) (fun x _ h _ => SpriteLine.marked_place h x _)
    SpriteLine.marked_empty ppu line

/-! ## Operations that leave the sprite pixels alone -/

theorem readRegister_sprites (ppu : Ppu) (register : PpuRegister) :
    (ppu.readRegister register).2.sprites = ppu.sprites := by
  cases register with
  | data =>
    unfold readRegister readData
    dsimp only
    split
    · rfl
    · rfl
  | control | mask | status | oamAddress | oamData | scroll | address => rfl

theorem writeRegister_sprites (ppu : Ppu) (register : PpuRegister) (value : UInt8) :
    (ppu.writeRegister register value).sprites = ppu.sprites := by
  cases register with
  | data =>
    unfold writeRegister writeData
    dsimp only
    split
    · rfl
    · rfl
  | control | mask | status | oamAddress | oamData | scroll | address => rfl

theorem oamWriteFrom_sprites (ppu : Ppu) (start : UInt8) (data : List UInt8) :
    (ppu.oamWriteFrom start data).sprites = ppu.sprites := by
  induction data generalizing ppu start with
  | nil => rfl
  | cons value data ih =>
    unfold oamWriteFrom
    rw [ih]
    rfl

/-! ## Hits -/

theorem hitIn_exists {view : LineView} {x count : Nat} (h : view.hitIn x count = true) :
    ∃ column, view.hitAt column = true := by
  induction count generalizing x with
  | zero => cases h
  | succ count ih =>
    unfold LineView.hitIn at h
    cases hx : view.hitAt x with
    | true => exact ⟨x, hx⟩
    | false =>
      rw [hx, Bool.false_or] at h
      exact ih h

theorem background_of_entry {ppu : Ppu} {x : Nat} (h : ppu.lineView.backgroundAt x ≠ 0) :
    ppu.mask.background = true := by
  by_contra hoff
  apply h
  unfold LineView.backgroundAt Mask.backgroundAt
  simp [lineView, hoff]

theorem sprites_of_dot {ppu : Ppu} {x : Nat} {dot : SpriteDot}
    (h : ppu.lineView.spriteAt x = some dot) :
    ppu.mask.sprites = true ∧ ppu.sprites.cells[x]? = some (some dot) := by
  unfold LineView.spriteAt at h
  split at h
  · next hon =>
    unfold Mask.spritesAt at hon
    have hsprites : ppu.mask.sprites = true := (Bool.and_eq_true_iff.mp hon).1
    refine ⟨hsprites, ?_⟩
    have hcell : ppu.sprites.cells.toArray[x]?.getD none = some dot := by
      rw [← Array.getD_eq_getD_getElem?]
      exact h
    cases hx : ppu.sprites.cells.toArray[x]? with
    | none =>
      rw [hx] at hcell
      cases hcell
    | some cell =>
      rw [hx] at hcell
      rw [← Vector.getElem?_toArray, hx]
      exact congrArg some hcell
  · cases h

/-- A hit takes a pixel of the first sprite, and both background and sprites to be shown. -/
theorem hit_needs {ppu : Ppu} (marked : ppu.sprites.Marked) (h : ppu.lineView.hit = true) :
    ppu.sprites.hasFirst = true ∧ ppu.mask.background = true ∧ ppu.mask.sprites = true := by
  obtain ⟨x, hx⟩ := hitIn_exists h
  unfold LineView.hitAt at hx
  split at hx
  · next dot hdot =>
    have hfirst : dot.first = true ∧ ppu.lineView.backgroundAt x ≠ 0 := by simpa using hx
    obtain ⟨hsprites, hcell⟩ := sprites_of_dot hdot
    exact ⟨marked x dot hcell hfirst.1, background_of_entry hfirst.2, hsprites⟩
  · cases hx

/-- A line that cannot set the hit flag leaves it as it is. -/
theorem hit_of_not_canHit {ppu : Ppu} (marked : ppu.sprites.Marked)
    (h : ppu.canHit = false) : (ppu.status.zeroHit || ppu.lineView.hit) = ppu.status.zeroHit := by
  unfold canHit at h
  cases hzero : ppu.status.zeroHit with
  | true => rw [Bool.true_or]
  | false =>
    rw [Bool.false_or]
    by_contra hhit
    obtain ⟨hfirst, hbackground, hsprites⟩ := hit_needs marked (by simpa using hhit)
    rw [hfirst, hbackground, hsprites, hzero] at h
    cases h

/-- Whatever a line is drawn into, only the hit flag changes, and always in the same way. -/
theorem drawLine_snd {ppu : Ppu} (marked : ppu.sprites.Marked) (picture : Option Picture)
    (start : Option Nat) :
    (ppu.drawLine picture start).2 =
      { ppu with status :=
        { ppu.status with zeroHit := ppu.status.zeroHit || ppu.lineView.hit } } := by
  unfold drawLine
  split
  · next h =>
    have hcan : ppu.canHit = false := by
      rw [Bool.and_eq_true, Bool.not_eq_true'] at h
      exact h.2
    rw [hit_of_not_canHit marked hcan]
  · rfl

/-- Whatever a line is rendered into, the PPU is the same afterwards. -/
theorem renderScanline_snd_eq {ppu : Ppu} (marked : ppu.sprites.Marked) (line : Nat)
    (picture picture' : Option Picture) :
    (ppu.renderScanline line picture).2 = (ppu.renderScanline line picture').2 := by
  unfold renderScanline
  split
  · rfl
  · dsimp only
    split
    · dsimp only
      rw [drawLine_snd marked, drawLine_snd marked]
    · rfl

/-! ## Every operation keeps the mark right -/

theorem marked_renderScanline {ppu : Ppu} (marked : ppu.sprites.Marked) (line : Nat)
    (picture : Option Picture) : (ppu.renderScanline line picture).2.sprites.Marked := by
  unfold renderScanline
  split
  · exact marked
  · dsimp only
    split
    · exact marked_evaluateSprites _ line
    · exact SpriteLine.marked_empty

theorem marked_preRender {ppu : Ppu} (marked : ppu.sprites.Marked) (line : Nat) :
    (ppu.preRender line).sprites.Marked := by
  unfold preRender
  split
  · split <;> exact marked
  · split
    · split <;> exact marked
    · split
      · exact marked
      · split
        · exact SpriteLine.marked_empty
        · exact marked

theorem marked_step {a b : Ppu} (step : Step a b) (marked : a.sprites.Marked) :
    b.sprites.Marked := by
  cases step with
  | readRegister register =>
    rw [readRegister_sprites]
    exact marked
  | writeRegister register value =>
    rw [writeRegister_sprites]
    exact marked
  | oamWriteBlock start data =>
    unfold oamWriteBlock
    rw [oamWriteFrom_sprites]
    exact marked
  | takeNmi => exact marked
  | preRender line => exact marked_preRender marked line
  | renderScanline line picture => exact marked_renderScanline marked line picture
  | reset => exact SpriteLine.marked_empty

end Ppu
end Nes
