/-
  The scroll registers as the numbers that the chip holds.

  An address is one number of 16 bits and its parts are fields of it; `field` and `withField` get at
  them. The chip moves the address by plain additions, of 1 for a tile and of 0x1000 for a pixel
  row, and looks at a field first where the sum would carry into the next one. Here each of these
  additions is checked.

  Packing an address and then moving it is moving it and then packing it (`nextTile?_eq`,
  `nextRow?_eq`): as long as the number has 15 bits, no addition leaves its register.
-/
import Nes.Ppu.Scroll
import Nes.Proofs.Checked

namespace Nes

open Checked

/-! ## Addresses -/

namespace PackedAddress

/-- The field of `size` values whose lowest bit is worth `unit`. -/
def field (v unit size : Nat) : Nat := v / unit % size

/-- The number with another value in one of its fields. -/
def withField (v unit size value : Nat) : Nat :=
  v - unit * field v unit size + unit * (value % size)

/-- The number with one bit turned over. -/
def flipped (v unit : Nat) : Nat := withField v unit 2 (field v unit 2 + 1)

def coarseX (v : Nat) : Nat := field v 1 32

def coarseY (v : Nat) : Nat := field v 32 32

def table (v : Nat) : Nat := field v 0x400 4

def fineY (v : Nat) : Nat := field v 0x1000 8

/-- Where the tile number is stored. -/
def tileAddress (v : Nat) : Nat := 0x2000 + v % 0x1000

/-- Where the attribute byte of the tile is stored. -/
def attributeAddress (v : Nat) : Nat :=
  0x23C0 + 0x400 * table v + 8 * (coarseY v / 4) + coarseX v / 4

/-- Position of the tile's two bits in its attribute byte. -/
def attributeShift (v : Nat) : Nat := 4 * (coarseY v / 2 % 2) + 2 * (coarseX v / 2 % 2)

/-- Moves on by `step` bytes. The sum wraps, and 15 bits of it are kept. -/
def advance (v step : Nat) : Nat := (v + step) % 0x10000 % 0x8000

/-- Moves one tile to the right. -/
def nextTile? (v : Nat) : Option Nat :=
  if coarseX v = 31 then some (flipped (withField v 1 32 0) 0x400) else add? wordTop v 1

/-- Moves one pixel row down. -/
def nextRow? (v : Nat) : Option Nat :=
  if fineY v < 7 then add? wordTop v 0x1000
  else
    let v := withField v 0x1000 8 0
    if coarseY v = 29 then some (flipped (withField v 32 32 0) 0x800)
    else if coarseY v = 31 then some (withField v 32 32 0)
    else do
      let next ← add? byteTop (coarseY v) 1
      return withField v 32 32 next

/-- Goes back to the column of another address. -/
def toColumnOf (v start : Nat) : Nat :=
  withField (withField v 1 32 (coarseX start)) 0x400 2 (field start 0x400 2)

end PackedAddress

namespace VideoAddress

open PackedAddress (field withField flipped)

variable (v : VideoAddress)

/-- How large the fields are. -/
theorem bounds : v.coarseX.val < 32 ∧ v.coarseY.val < 32 ∧ v.tableX.toNat ≤ 1 ∧
    v.tableY.toNat ≤ 1 ∧ v.fineY.val < 8 :=
  ⟨v.coarseX.isLt, v.coarseY.isLt, Bool.toNat_le _, Bool.toNat_le _, v.fineY.isLt⟩

theorem coarseX_toNat : PackedAddress.coarseX v.toNat = v.coarseX := by
  have := v.coarseX.isLt
  unfold PackedAddress.coarseX field toNat
  omega

theorem coarseY_toNat : PackedAddress.coarseY v.toNat = v.coarseY := by
  have bounds := v.bounds
  unfold PackedAddress.coarseY field toNat
  omega

theorem table_toNat : PackedAddress.table v.toNat = v.table := by
  have bounds := v.bounds
  unfold PackedAddress.table field toNat table
  omega

theorem fineY_toNat : PackedAddress.fineY v.toNat = v.fineY := by
  have bounds := v.bounds
  unfold PackedAddress.fineY field toNat
  omega

theorem tileAddress_toNat : PackedAddress.tileAddress v.toNat = v.tileAddress := by
  have bounds := v.bounds
  unfold PackedAddress.tileAddress tileAddress toNat table
  omega

theorem attributeAddress_toNat : PackedAddress.attributeAddress v.toNat = v.attributeAddress := by
  unfold PackedAddress.attributeAddress attributeAddress
  rw [coarseX_toNat, coarseY_toNat, table_toNat]

theorem attributeShift_toNat : PackedAddress.attributeShift v.toNat = v.attributeShift := by
  unfold PackedAddress.attributeShift attributeShift
  rw [coarseX_toNat, coarseY_toNat]

theorem advance_toNat (step : Nat) :
    PackedAddress.advance v.toNat step = (v.advance step).toNat := by
  unfold PackedAddress.advance advance
  rw [toNat_ofNat]
  omega

/-- The number of an address, with another column in it. -/
theorem toNat_withColumn (coarseX : Fin 32) :
    withField v.toNat 1 32 coarseX = { v with coarseX }.toNat := by
  have := v.coarseX.isLt
  have := coarseX.isLt
  unfold withField field toNat
  dsimp only
  omega

theorem toNat_withRow (coarseY : Fin 32) :
    withField v.toNat 32 32 coarseY = { v with coarseY }.toNat := by
  have bounds := v.bounds
  have := coarseY.isLt
  unfold withField field toNat
  dsimp only
  omega

theorem toNat_withFineRow (fineY : Fin 8) :
    withField v.toNat 0x1000 8 fineY = { v with fineY }.toNat := by
  have bounds := v.bounds
  have := fineY.isLt
  unfold withField field toNat
  dsimp only
  omega

theorem toNat_withTableX (tableX : Bool) :
    withField v.toNat 0x400 2 tableX.toNat = { v with tableX }.toNat := by
  have bounds := v.bounds
  have := Bool.toNat_le tableX
  unfold withField field toNat
  dsimp only
  omega

theorem toNat_withTableY (tableY : Bool) :
    withField v.toNat 0x800 2 tableY.toNat = { v with tableY }.toNat := by
  have bounds := v.bounds
  have := Bool.toNat_le tableY
  unfold withField field toNat
  dsimp only
  omega

/-- The number of an address, turned over into the table beside. -/
theorem toNat_flippedX : flipped v.toNat 0x400 = { v with tableX := !v.tableX }.toNat := by
  have hfield : field v.toNat 0x400 2 = v.tableX.toNat := by
    have bounds := v.bounds
    unfold field toNat
    omega
  have hturn : (v.tableX.toNat + 1) % 2 = (!v.tableX).toNat % 2 := by
    cases v.tableX <;> rfl
  rw [← toNat_withTableX v (!v.tableX)]
  unfold flipped withField
  rw [hfield, hturn]

/-- The number of an address, turned over into the table below. -/
theorem toNat_flippedY : flipped v.toNat 0x800 = { v with tableY := !v.tableY }.toNat := by
  have hfield : field v.toNat 0x800 2 = v.tableY.toNat := by
    have bounds := v.bounds
    unfold field toNat
    omega
  have hturn : (v.tableY.toNat + 1) % 2 = (!v.tableY).toNat % 2 := by
    cases v.tableY <;> rfl
  rw [← toNat_withTableY v (!v.tableY)]
  unfold flipped withField
  rw [hfield, hturn]

theorem nextTile?_eq : PackedAddress.nextTile? v.toNat = some v.nextTile.toNat := by
  have hlt := v.toNat_lt
  unfold PackedAddress.nextTile? nextTile
  rw [coarseX_toNat]
  split
  · have hcolumn : withField v.toNat 1 32 0 = { v with coarseX := wrap 0 }.toNat :=
      toNat_withColumn v (wrap 0)
    rw [hcolumn, toNat_flippedX]
  · next inside =>
    have hcolumn : v.toNat + 1 = { v with coarseX := wrap (v.coarseX + 1) }.toNat := by
      have := v.coarseX.isLt
      unfold toNat
      dsimp only
      rw [val_wrap]
      omega
    rw [add?_eq (by unfold wordTop; omega), hcolumn]

theorem nextRow?_eq : PackedAddress.nextRow? v.toNat = some v.nextRow.toNat := by
  have hlt := v.toNat_lt
  have hy := v.coarseY.isLt
  have hfine : withField v.toNat 0x1000 8 0 = { v with fineY := wrap 0 }.toNat :=
    toNat_withFineRow v (wrap 0)
  unfold PackedAddress.nextRow? nextRow
  rw [fineY_toNat]
  split
  · have hrow : v.toNat + 0x1000 = { v with fineY := wrap (v.fineY + 1) }.toNat := by
      unfold toNat
      dsimp only
      rw [val_wrap]
      omega
    rw [add?_eq (by unfold wordTop; omega), hrow]
  · dsimp only
    rw [hfine, coarseY_toNat]
    dsimp only
    split
    · have htop : withField { v with fineY := wrap 0 }.toNat 32 32 0 =
          { v with fineY := wrap 0, coarseY := wrap 0 }.toNat := toNat_withRow _ (wrap 0)
      rw [htop, toNat_flippedY]
    · have hnext : withField { v with fineY := wrap 0 }.toNat 32 32 ((v.coarseY + 1) % 32) =
          { v with fineY := wrap 0, coarseY := wrap (v.coarseY + 1) }.toNat :=
        toNat_withRow _ (wrap (v.coarseY + 1))
      split
      · next last =>
        rw [last] at hnext ⊢
        exact congrArg some hnext
      · have hkept : (v.coarseY.val + 1) % 32 = v.coarseY + 1 := by omega
        rw [hkept] at hnext
        rw [add?_eq (by unfold byteTop; omega)]
        exact congrArg some hnext

theorem toColumnOf_toNat (start : VideoAddress) :
    PackedAddress.toColumnOf v.toNat start.toNat = (v.toColumnOf start).toNat := by
  have htable : field start.toNat 0x400 2 = start.tableX.toNat := by
    have bounds := start.bounds
    unfold field toNat
    omega
  unfold PackedAddress.toColumnOf
  rw [coarseX_toNat, htable, toNat_withColumn, toNat_withTableX]
  rfl

/-- The number of an address, with both bits of the nametable. -/
theorem toNat_withTable (value : UInt8) :
    withField v.toNat 0x400 4 value.toNat =
      { v with tableX := bit value 0, tableY := bit value 1 }.toNat := by
  have hx : (bit value 0).toNat = value.toNat % 2 := by
    unfold bit
    rw [Nat.testBit_zero]
    rcases Nat.mod_two_eq_zero_or_one value.toNat with h | h <;> rw [h] <;> rfl
  have hy : (bit value 1).toNat = value.toNat / 2 % 2 := by
    unfold bit
    rw [Nat.testBit_succ, Nat.testBit_zero]
    rcases Nat.mod_two_eq_zero_or_one (value.toNat / 2) with h | h <;> rw [h] <;> rfl
  have bounds := v.bounds
  unfold withField field toNat
  dsimp only
  rw [hx, hy]
  omega

end VideoAddress

/-! ## The registers -/

/-- The scroll registers as numbers. -/
structure PackedScroll where
  v : Nat := 0
  t : Nat := 0
  fineX : Nat := 0
  second : Bool := false

namespace PackedScroll

open PackedAddress (withField)

/-- A write to $2005. -/
def writeScroll (s : PackedScroll) (value : UInt8) : PackedScroll :=
  let coarse := value.toNat / 8
  let fine := value.toNat % 8
  if s.second then
    { s with t := withField (withField s.t 32 32 coarse) 0x1000 8 fine, second := false }
  else { s with t := withField s.t 1 32 coarse, fineX := fine, second := true }

/-- A write to $2006. Of the high byte six bits count, and 15 bits of the address are kept. -/
def writeAddress (s : PackedScroll) (value : UInt8) : PackedScroll :=
  if s.second then
    let t := (s.t / 0x100 % 0x80 * 0x100 + value.toNat) % 0x8000
    { s with t, v := t, second := false }
  else
    let t := (value.toNat % 0x40 * 0x100 + s.t % 0x100) % 0x8000
    { s with t, second := true }

/-- The nametable bits of a write to $2000. -/
def writeTable (s : PackedScroll) (value : UInt8) : PackedScroll :=
  { s with t := withField s.t 0x400 4 value.toNat }

end PackedScroll

namespace Scroll

/-- The registers as numbers. -/
def pack (s : Scroll) : PackedScroll where
  v := s.v.toNat
  t := s.t.toNat
  fineX := s.fineX
  second := s.second

variable (s : Scroll) (value : UInt8)

theorem pack_writeScroll : (s.writeScroll value).pack = s.pack.writeScroll value := by
  unfold writeScroll PackedScroll.writeScroll pack
  have hbyte := value.toNat_lt
  have hcoarse : value.toNat / 8 % 32 = value.toNat / 8 := by omega
  dsimp only
  split
  · have hrow := s.t.toNat_withRow (wrap (value.toNat / 8))
    have hfine := ({ s.t with coarseY := wrap (value.toNat / 8) } : VideoAddress).toNat_withFineRow
      (wrap value.toNat)
    rw [val_wrap, hcoarse] at hrow
    rw [val_wrap] at hfine
    rw [hrow, hfine]
  · have hcolumn := s.t.toNat_withColumn (wrap (value.toNat / 8))
    rw [val_wrap, hcoarse] at hcolumn
    rw [hcolumn]
    rfl

theorem pack_writeAddress : (s.writeAddress value).pack = s.pack.writeAddress value := by
  have ht := s.t.toNat_lt
  unfold writeAddress PackedScroll.writeAddress pack
  dsimp only
  split
  · have hhigh : s.t.toNat / 256 % 128 = s.t.toNat / 256 := by omega
    dsimp only
    rw [VideoAddress.toNat_ofNat, hhigh]
  · dsimp only
    rw [VideoAddress.toNat_ofNat]

theorem pack_writeTable :
    { s with t := { s.t with tableX := bit value 0, tableY := bit value 1 } }.pack =
      s.pack.writeTable value := by
  unfold PackedScroll.writeTable pack
  dsimp only
  rw [VideoAddress.toNat_withTable]

end Scroll
end Nes
