/-
  Scrolling: the address that the PPU walks through video memory with.

  It is a position on a plane of two by two nametables: a tile column and row, the table, and
  the pixel row inside the tile. Written as a number it has 15 bits,

      fine Y (3) | table Y | table X | coarse Y (5) | coarse X (5)
-/
import Nes.Word

namespace Nes

/-- A position in the nametables. -/
structure VideoAddress where
  coarseX : Fin 32 := wrap 0
  coarseY : Fin 32 := wrap 0
  tableX : Bool := false
  tableY : Bool := false
  fineY : Fin 8 := wrap 0
deriving DecidableEq, Inhabited

namespace VideoAddress

/-- The address as a number of 15 bits. -/
def toNat (v : VideoAddress) : Nat :=
  v.coarseX + 32 * v.coarseY + 0x400 * v.tableX.toNat + 0x800 * v.tableY.toNat + 0x1000 * v.fineY

/-- The address that the low 15 bits of a number stand for. -/
def ofNat (n : Nat) : VideoAddress where
  coarseX := wrap n
  coarseY := wrap (n / 32)
  tableX := n / 0x400 % 2 == 1
  tableY := n / 0x800 % 2 == 1
  fineY := wrap (n / 0x1000)

/-- Which of the four nametables the address is in. -/
def table (v : VideoAddress) : Nat := v.tableX.toNat + 2 * v.tableY.toNat

/-- Where the tile number is stored. -/
def tileAddress (v : VideoAddress) : Nat :=
  0x2000 + 0x400 * v.table + 32 * v.coarseY + v.coarseX

/-- Where the attribute byte of the tile is stored. -/
def attributeAddress (v : VideoAddress) : Nat :=
  0x23C0 + 0x400 * v.table + 8 * (v.coarseY / 4) + v.coarseX / 4

/-- Position of the tile's two bits in its attribute byte. -/
def attributeShift (v : VideoAddress) : Nat := 4 * (v.coarseY / 2 % 2) + 2 * (v.coarseX / 2 % 2)

/-- Moves on by `step` bytes. -/
def advance (v : VideoAddress) (step : Nat) : VideoAddress := ofNat (v.toNat + step)

/-- Moves one tile to the right; past the last column into the table beside. -/
def nextTile (v : VideoAddress) : VideoAddress :=
  if v.coarseX.val = 31 then { v with coarseX := wrap 0, tableX := !v.tableX }
  else { v with coarseX := wrap (v.coarseX + 1) }

/-- Moves one pixel row down. Past row 29 comes the table below; the rows 30 and 31, where the
    attributes are, lead back to the top of their own table. -/
def nextRow (v : VideoAddress) : VideoAddress :=
  if v.fineY.val < 7 then { v with fineY := wrap (v.fineY + 1) }
  else if v.coarseY.val = 29 then
    { v with fineY := wrap 0, coarseY := wrap 0, tableY := !v.tableY }
  else { v with fineY := wrap 0, coarseY := wrap (v.coarseY + 1) }

/-- Goes back to the column of another address. -/
def toColumnOf (v start : VideoAddress) : VideoAddress :=
  { v with coarseX := start.coarseX, tableX := start.tableX }

theorem toNat_lt (v : VideoAddress) : v.toNat < 0x8000 := by
  obtain ⟨x, y, tx, ty, f⟩ := v
  have := x.isLt
  have := y.isLt
  have := f.isLt
  cases tx <;> cases ty <;> simp [toNat] <;> omega

theorem toNat_ofNat (n : Nat) : (ofNat n).toNat = n % 0x8000 := by
  have hx : (n / 0x400 % 2 == 1).toNat = n / 0x400 % 2 := by
    rcases Nat.mod_two_eq_zero_or_one (n / 0x400) with h | h <;> rw [h] <;> rfl
  have hy : (n / 0x800 % 2 == 1).toNat = n / 0x800 % 2 := by
    rcases Nat.mod_two_eq_zero_or_one (n / 0x800) with h | h <;> rw [h] <;> rfl
  simp only [toNat, ofNat, val_wrap, hx, hy]
  omega

end VideoAddress

/-- The scroll registers. -/
structure Scroll where
  /-- Where the PPU is. -/
  v : VideoAddress := {}
  /-- Where the picture starts. -/
  t : VideoAddress := {}
  /-- Pixel column inside the first tile. -/
  fineX : Fin 8 := wrap 0
  /-- Whether the next write to $2005 or $2006 is the second of its pair. -/
  second : Bool := false
deriving DecidableEq, Inhabited

namespace Scroll

/-- A write to $2005: first the column, then the row. -/
def writeScroll (s : Scroll) (value : UInt8) : Scroll :=
  let coarse : Fin 32 := wrap (value.toNat / 8)
  let fine : Fin 8 := wrap value.toNat
  if s.second then { s with t := { s.t with coarseY := coarse, fineY := fine }, second := false }
  else { s with t := { s.t with coarseX := coarse }, fineX := fine, second := true }

/-- A write to $2006: first the high byte, of which six bits count, then the low byte. The
    second write takes effect at once. -/
def writeAddress (s : Scroll) (value : UInt8) : Scroll :=
  if s.second then
    let t := VideoAddress.ofNat (s.t.toNat / 256 * 256 + value.toNat)
    { s with t, v := t, second := false }
  else
    let t := VideoAddress.ofNat (value.toNat % 64 * 256 + s.t.toNat % 256)
    { s with t, second := true }

end Scroll
end Nes
