/-
  Where the PPU's address is after any number of tiles and pixel rows, in any order.

  Model (read this before the theorems). Moving to the next tile and moving to the next row are the
  two moves of the address; a walk is a list of them. On the plane of the four nametables they are
  `x + 8` and `y + 1` (`nextTile_ofPlane`, `nextRow_ofPlane`), so a walk from a point of the plane
  ends where the number of its tiles and the number of its rows say, whatever their order
  (`walk_ofPlane`). The chip moves its packed number by additions; none of them carries out of a
  field on the way, so it makes the same walk (`walk?_eq`).

  An address among the attributes, in row 30 or 31, is at no point of the plane. Moving down, it
  goes through the pixel rows that are left of the table's 256 and then is in row 0 of the same
  table (`walk_attributes`).
-/
import Nes.Proofs.Ppu.ScrollPlane
import Nes.Proofs.Ppu.Packed.Scroll

namespace Nes

open Checked

/-! ## Moves -/

/-- What drawing does with the address: the next tile, or the next pixel row. -/
inductive VideoAddress.Move
  | tile
  | row
deriving DecidableEq, Repr

namespace VideoAddress

def move (v : VideoAddress) : Move → VideoAddress
  | .tile => v.nextTile
  | .row => v.nextRow

/-- The moves of a list, one after another. -/
def walk (v : VideoAddress) (moves : List Move) : VideoAddress := moves.foldl move v

end VideoAddress

namespace PackedAddress

/-- A move of the packed number, where every sum is checked. -/
def move? (v : Nat) : VideoAddress.Move → Option Nat
  | .tile => nextTile? v
  | .row => nextRow? v

def walk? (v : Nat) (moves : List VideoAddress.Move) : Option Nat := moves.foldlM move? v

end PackedAddress

namespace VideoAddress

variable (v : VideoAddress)

@[simp] theorem walk_nil : v.walk [] = v := rfl

@[simp] theorem walk_cons (next : Move) (moves : List Move) :
    v.walk (next :: moves) = (v.move next).walk moves := rfl

theorem walk_append (moves later : List Move) :
    v.walk (moves ++ later) = (v.walk moves).walk later := List.foldl_append

theorem move?_eq (next : Move) : PackedAddress.move? v.toNat next = some (v.move next).toNat := by
  cases next with
  | tile => exact v.nextTile?_eq
  | row => exact v.nextRow?_eq

/-- The packed number makes the same walk, and no sum leaves its register. -/
theorem walk?_eq (moves : List Move) :
    PackedAddress.walk? v.toNat moves = some (v.walk moves).toNat := by
  induction moves generalizing v with
  | nil => rfl
  | cons next moves ih => exact (bind_some (v.move?_eq next)).trans (ih (v.move next))

/-! ## On the plane -/

theorem move_ofPlane (x y : Nat) (next : Move) :
    (ofPlane x y).move next = ofPlane (x + 8 * [next].count .tile) (y + [next].count .row) := by
  cases next with
  | tile => exact nextTile_ofPlane x y
  | row => exact nextRow_ofPlane x y

/-- A walk is told by how many tiles and how many rows are in it. -/
theorem walk_ofPlane (x y : Nat) (moves : List Move) :
    (ofPlane x y).walk moves = ofPlane (x + 8 * moves.count .tile) (y + moves.count .row) := by
  induction moves generalizing x y with
  | nil => rfl
  | cons next moves ih =>
    have hcount (kind : Move) : (next :: moves).count kind = [next].count kind + moves.count kind :=
      @List.count_append _ _ kind [next] moves
    rw [walk_cons, move_ofPlane, ih, hcount, hcount, Nat.mul_add, Nat.add_assoc, Nat.add_assoc]

theorem planeX_ofPlane (x y : Nat) : (ofPlane x y).planeX = 8 * (x / 8 % 64) := by
  unfold planeX ofPlane
  simp only [val_wrap, toNat_beq_one]
  omega

theorem planeY_ofPlane (x y : Nat) : (ofPlane x y).planeY = y % 480 := by
  unfold planeY ofPlane
  simp only [val_wrap, toNat_beq_one]
  omega

theorem eight_dvd_planeX : 8 ∣ v.planeX := by
  unfold planeX
  omega

/-! ## Among the attributes -/

/-- The pixel row of its table that an address is in. -/
def pixelRow : Nat := 8 * v.coarseY + v.fineY

/-- The address in another pixel row of its table. Row 256 is row 0. -/
def atPixelRow (row : Nat) : VideoAddress :=
  { v with coarseY := wrap (row / 8), fineY := wrap row }

theorem atPixelRow_self : v.atPixelRow v.pixelRow = v := by
  obtain ⟨_, y, _, _, f⟩ := v
  have hy := y.isLt
  have hf := f.isLt
  unfold atPixelRow pixelRow
  dsimp only
  congr 1
  · exact Fin.ext (by rw [val_wrap]; omega)
  · exact Fin.ext (by rw [val_wrap]; omega)

theorem coarseY_atPixelRow {row : Nat} (h : row < 256) :
    (v.atPixelRow row).coarseY.val = row / 8 := by
  unfold atPixelRow
  rw [val_wrap]
  omega

theorem nextRow_atPixelRow {row : Nat} (low : 240 ≤ row) (high : row < 256) :
    (v.atPixelRow row).nextRow = v.atPixelRow (row + 1) := by
  have hcoarse := v.coarseY_atPixelRow high
  have hfine : (v.atPixelRow row).fineY.val = row % 8 := rfl
  unfold nextRow
  rw [hcoarse, hfine]
  by_cases hinside : row % 8 < 7
  · rw [if_pos hinside]
    unfold atPixelRow
    congr 1
    · exact wrap_congr (by omega)
    · exact wrap_congr (by omega)
  · rw [if_neg hinside, if_neg (by omega)]
    unfold atPixelRow
    congr 1
    · exact wrap_congr (by omega)
    · exact wrap_congr (by omega)

/-- Rows down from row 30 or 31, no further than to the end of the table. -/
theorem walk_attributes (h : 30 ≤ v.coarseY.val) {rows : Nat} (fit : v.pixelRow + rows ≤ 256) :
    v.walk (List.replicate rows .row) = v.atPixelRow (v.pixelRow + rows) := by
  have hlow : 240 ≤ v.pixelRow := by
    unfold pixelRow
    omega
  induction rows with
  | zero => exact v.atPixelRow_self.symm
  | succ rows ih =>
    rw [List.replicate_succ', walk_append, ih (by omega)]
    exact v.nextRow_atPixelRow (by omega) (by omega)

/-! ## The result -/

/-- Any walk, over any borders. From a row of tiles, the position on the plane moves by 8 columns
    for each tile and by one row for each row, around in both directions, and stays out of the
    attributes. The packed number takes the same steps and stays below 15 bits. From the rows of
    the attributes, moving down leads to row 0 of the same table, and on the way there no other
    table is entered and the column stays. -/
theorem walk_moves (moves : List Move) :
    (v.coarseY.val ≤ 29 →
      (v.walk moves).planeX = (v.planeX + 8 * moves.count .tile) % 512 ∧
      (v.walk moves).planeY = (v.planeY + moves.count .row) % 480 ∧
      (v.walk moves).coarseY.val ≤ 29) ∧
    (PackedAddress.walk? v.toNat moves = some (v.walk moves).toNat ∧
      (v.walk moves).toNat < 0x8000) ∧
    (30 ≤ v.coarseY.val →
      v.walk (List.replicate (256 - v.pixelRow) .row) =
        { v with coarseY := wrap 0, fineY := wrap 0 } ∧
      ∀ rows < 256 - v.pixelRow, ∃ coarseY fineY,
        v.walk (List.replicate rows .row) = { v with coarseY, fineY } ∧ 30 ≤ coarseY.val) := by
  refine ⟨?_, ⟨v.walk?_eq moves, toNat_lt _⟩, ?_⟩
  · intro tiles
    have hwalk := walk_ofPlane v.planeX v.planeY moves
    rw [ofPlane_self v tiles] at hwalk
    rw [hwalk, planeX_ofPlane, planeY_ofPlane, coarseY_ofPlane]
    have haligned := v.eight_dvd_planeX
    exact ⟨by omega, rfl, by omega⟩
  · intro attributes
    have hend : v.pixelRow ≤ 256 := by
      have bounds := v.bounds
      unfold pixelRow
      omega
    constructor
    · rw [v.walk_attributes attributes (by omega), Nat.add_sub_cancel' hend]
      rfl
    · intro rows hrows
      have hlow : 240 ≤ v.pixelRow := by
        unfold pixelRow
        omega
      refine ⟨_, _, v.walk_attributes attributes (by omega), ?_⟩
      show 30 ≤ (v.atPixelRow _).coarseY.val
      rw [v.coarseY_atPixelRow (by omega)]
      omega

/-- From the last tile of the last row, a row and two tiles lead into the first row of the table
    below and the second column of the table beside. From pixel row 254 two rows lead to row 0. -/
theorem walk_moves_corners :
    let corner : VideoAddress := { coarseX := 31, coarseY := 29, fineY := 7 }
    let attributes : VideoAddress := { coarseY := 31, fineY := 6, tableY := true }
    (corner.walk [.tile, .row, .tile]).planeX = 264 ∧
      (corner.walk [.tile, .row, .tile]).planeY = 240 ∧
      attributes.walk [.row, .row] = { tableY := true } := by
  intro corner attributes
  obtain ⟨hx, hy, _⟩ := (walk_moves corner [.tile, .row, .tile]).1 (by decide)
  obtain ⟨htop, _⟩ := (walk_moves attributes []).2.2 (by decide)
  exact ⟨hx, hy, htop⟩

end VideoAddress
end Nes
