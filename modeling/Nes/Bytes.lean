/-
  Byte strings: cartridge files, stored save images and blocks of memory on their way
  from one place to another.
-/

namespace Nes

/-- A byte string of any length. -/
abbrev Bytes := Array UInt8

namespace Bytes

/-- `size` zero bytes. -/
def zeros (size : Nat) : Bytes := Array.replicate size 0

/-- Cuts or fills a byte string at its end, so that it has `size` bytes. -/
def resize (bytes : Bytes) (size : Nat) (filler : UInt8) : Bytes :=
  bytes.extract 0 size ++ Array.replicate (size - bytes.size) filler

theorem size_resize (bytes : Bytes) (size : Nat) (filler : UInt8) :
    (bytes.resize size filler).size = size := by
  simp [resize]
  omega

end Bytes

/-- Copies `count` bytes of `source`, from `offset` on, over the cells of `cells` from
    `start` on. Cells and bytes past either end are left alone. -/
def copyInto {n : Nat} (cells : Vector UInt8 n) (start : Nat) (source : Bytes) (offset : Nat) :
    (count : Nat) → Vector UInt8 n
  | 0 => cells
  | count + 1 =>
    if h : offset < source.size then
      copyInto (cells.setIfInBounds start source[offset]) (start + 1) source (offset + 1) count
    else cells

end Nes
