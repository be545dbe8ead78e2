/-
  A block of RAM that answers at every address, folded into its size.
-/
import Nes.Bytes

namespace Nes

/-- `size` bytes of memory. -/
structure Ram (size : Nat) where
  cells : Vector UInt8 size

namespace Ram

variable {size : Nat}

/-- Cleared memory. -/
def blank (size : Nat) : Ram size := ⟨Vector.replicate size 0⟩

instance : Inhabited (Ram size) := ⟨blank size⟩

/-- The byte at an address, which wraps at the size of the block. -/
@[inline] def read (ram : Ram size) (addr : Nat) : UInt8 :=
  ram.cells.toArray.getD (addr % size) 0

/-- Stores a byte at an address, which wraps at the size of the block. -/
@[inline] def write (ram : Ram size) (addr : Nat) (value : UInt8) : Ram size :=
  ⟨ram.cells.setIfInBounds (addr % size) value⟩

/-- Copies bytes in from `start` on; what does not fit is dropped. -/
def load (ram : Ram size) (start : Nat) (bytes : Bytes) : Ram size :=
  ⟨copyInto ram.cells start bytes 0 bytes.size⟩

/-- The contents as a byte string. -/
def bytes (ram : Ram size) : Bytes := ram.cells.toArray

/-- A read after a write sees the new byte at addresses that fold to the same cell and the
    old byte elsewhere. -/
theorem read_write (h : 0 < size) (ram : Ram size) (a b : Nat) (value : UInt8) :
    (ram.write a value).read b = if a % size = b % size then value else ram.read b := by
  have hb := Nat.mod_lt b h
  simp [read, write, Array.getD, hb, Array.getElem_setIfInBounds]

end Ram
end Nes
