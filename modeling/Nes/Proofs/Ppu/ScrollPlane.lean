/-
  The plane that the PPU's address moves on.

  The four nametables lie side by side, two by two, and make a plane of 512 columns and 480 rows
  of pixels that repeats in both directions. `ofPlane x y` is the address of the tile row that
  covers a point. Its parts wrap each in their own way; on the plane, one tile to the right is
  `x + 8` (`nextTile_ofPlane`) and one row down is `y + 1` (`nextRow_ofPlane`), across all
  borders. An address in the rows 30 and 31, where the attributes are, is at no point of the
  plane.
-/
import Nes.Ppu.Scroll

namespace Nes

namespace VideoAddress

/-- The address of the tile row that covers a point. -/
def ofPlane (x y : Nat) : VideoAddress where
  coarseX := wrap (x / 8)
  coarseY := wrap (y % 240 / 8)
  tableX := x / 256 % 2 == 1
  tableY := y / 240 % 2 == 1
  fineY := wrap (y % 240)

/-- The column of the plane in which the tile of an address starts. -/
def planeX (v : VideoAddress) : Nat := 256 * v.tableX.toNat + 8 * v.coarseX

/-- The row of the plane that an address is in. -/
def planeY (v : VideoAddress) : Nat := 240 * v.tableY.toNat + 8 * v.coarseY + v.fineY

theorem wrap_congr {n a b : Nat} (h : a % (n + 1) = b % (n + 1)) :
    (wrap a : Fin (n + 1)) = wrap b := Fin.ext h

theorem beq_one_congr {a b : Nat} (h : a % 2 = b % 2) : (a % 2 == 1) = (b % 2 == 1) := by
  rw [h]

theorem not_beq_one (a : Nat) : (!(a % 2 == 1)) = ((a + 1) % 2 == 1) := by
  rw [Bool.eq_iff_iff]
  simp
  omega

theorem toNat_beq_one (a : Nat) : (a % 2 == 1).toNat = a % 2 := by
  obtain h | h := Nat.mod_two_eq_zero_or_one a
  · rw [h]
    rfl
  · rw [h]
    rfl

theorem ofPlane_congr {x x' y y' : Nat} (hx : x / 8 % 64 = x' / 8 % 64)
    (hy : y % 480 = y' % 480) : ofPlane x y = ofPlane x' y' := by
  unfold ofPlane
  congr 1
  · exact wrap_congr (by omega)
  · exact wrap_congr (by omega)
  · exact beq_one_congr (by omega)
  · exact beq_one_congr (by omega)
  · exact wrap_congr (by omega)

/-- An address is where its column and its row are, unless it is among the attributes. -/
theorem ofPlane_self (v : VideoAddress) (h : v.coarseY.val ≤ 29) :
    ofPlane v.planeX v.planeY = v := by
  obtain ⟨x, y, tx, ty, f⟩ := v
  have hx := x.isLt
  have hf := f.isLt
  dsimp only at h
  have htx : (tx.toNat % 2 == 1) = tx := by cases tx <;> rfl
  have hty : (ty.toNat % 2 == 1) = ty := by cases ty <;> rfl
  have hcolumn : tx.toNat ≤ 1 := Bool.toNat_le tx
  have hrow : ty.toNat ≤ 1 := Bool.toNat_le ty
  unfold ofPlane planeX planeY
  dsimp only
  congr 1
  · exact Fin.ext (by rw [val_wrap]; omega)
  · exact Fin.ext (by rw [val_wrap]; omega)
  · exact (beq_one_congr (by omega)).trans htx
  · exact (beq_one_congr (by omega)).trans hty
  · exact Fin.ext (by rw [val_wrap]; omega)

theorem coarseX_ofPlane (x y : Nat) : (ofPlane x y).coarseX.val = x / 8 % 32 := rfl

theorem coarseY_ofPlane (x y : Nat) : (ofPlane x y).coarseY.val = y % 240 / 8 := by
  unfold ofPlane
  rw [val_wrap]
  omega

theorem fineY_ofPlane (x y : Nat) : (ofPlane x y).fineY.val = y % 240 % 8 := rfl

theorem nextTile_ofPlane (x y : Nat) : (ofPlane x y).nextTile = ofPlane (x + 8) y := by
  unfold nextTile
  rw [coarseX_ofPlane]
  by_cases hlast : x / 8 % 32 = 31
  · rw [if_pos hlast]
    unfold ofPlane
    congr 1
    · exact wrap_congr (by omega)
    · exact (not_beq_one _).trans (beq_one_congr (by omega))
  · rw [if_neg hlast]
    unfold ofPlane
    congr 1
    · exact wrap_congr (by omega)
    · exact beq_one_congr (by omega)

theorem nextRow_ofPlane (x y : Nat) : (ofPlane x y).nextRow = ofPlane x (y + 1) := by
  unfold nextRow
  rw [coarseY_ofPlane, fineY_ofPlane]
  by_cases hinside : y % 240 % 8 < 7
  · rw [if_pos hinside]
    unfold ofPlane
    congr 1
    · exact wrap_congr (by omega)
    · exact beq_one_congr (by omega)
    · exact wrap_congr (by omega)
  rw [if_neg hinside]
  by_cases hlast : y % 240 / 8 = 29
  · rw [if_pos hlast]
    unfold ofPlane
    congr 1
    · exact wrap_congr (by omega)
    · exact (not_beq_one _).trans (beq_one_congr (by omega))
    · exact wrap_congr (by omega)
  · rw [if_neg hlast]
    unfold ofPlane
    congr 1
    · exact wrap_congr (by omega)
    · exact beq_one_congr (by omega)
    · exact wrap_congr (by omega)

/-- Going back to the column of another address. -/
theorem toColumnOf_ofPlane (x y : Nat) (start : VideoAddress) :
    (ofPlane x y).toColumnOf start = ofPlane start.planeX y := by
  obtain ⟨column, _, tx, _, _⟩ := start
  have hcolumn := column.isLt
  have htx : (tx.toNat % 2 == 1) = tx := by cases tx <;> rfl
  have htable : tx.toNat ≤ 1 := Bool.toNat_le tx
  unfold toColumnOf ofPlane planeX
  dsimp only
  congr 1
  · exact Fin.ext (by rw [val_wrap]; omega)
  · exact (htx.symm).trans (beq_one_congr (by omega))

/-! ## What is stored for a point -/

theorem tileAddress_ofPlane (x y : Nat) :
    (ofPlane x y).tileAddress =
      0x2000 + 0x400 * (x % 512 / 256 + 2 * (y % 480 / 240)) + 32 * (y % 240 / 8) +
        x % 256 / 8 := by
  unfold tileAddress table ofPlane
  simp only [val_wrap, toNat_beq_one]
  omega

theorem attributeAddress_ofPlane (x y : Nat) :
    (ofPlane x y).attributeAddress =
      0x23C0 + 0x400 * (x % 512 / 256 + 2 * (y % 480 / 240)) + 8 * (y % 240 / 32) +
        x % 256 / 32 := by
  unfold attributeAddress table ofPlane
  simp only [val_wrap, toNat_beq_one]
  omega

theorem attributeShift_ofPlane (x y : Nat) :
    (ofPlane x y).attributeShift = 4 * (y % 240 / 16 % 2) + 2 * (x % 256 / 16 % 2) := by
  unfold attributeShift ofPlane
  simp only [val_wrap]
  omega

end VideoAddress
end Nes
