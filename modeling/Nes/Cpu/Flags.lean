/-
  The processor status flags.

  Six flags exist. The byte that stands for them has two more bits: bit 5 always reads as set,
  and bit 4 (B) exists only in a pushed copy, where it tells PHP and BRK from an interrupt.
-/
import Nes.Word

namespace Nes

/-- The six status flags. Arithmetic is binary whatever `decimal` says. -/
structure Flags where
  negative : Bool := false
  overflow : Bool := false
  decimal : Bool := false
  interrupt : Bool := true
  zero : Bool := false
  carry : Bool := false
deriving DecidableEq, Inhabited

namespace Flags

/-- The byte that is pushed; `brk` is its B bit. -/
def pushed (f : Flags) (brk : Bool) : UInt8 :=
  (if f.negative then 0x80 else 0) ||| (if f.overflow then 0x40 else 0) ||| 0x20 |||
    (if brk then 0x10 else 0) ||| (if f.decimal then 0x08 else 0) |||
    (if f.interrupt then 0x04 else 0) ||| (if f.zero then 0x02 else 0) |||
    (if f.carry then 0x01 else 0)

/-- The status register read as a byte. -/
def toByte (f : Flags) : UInt8 := f.pushed false

/-- The flags of a pulled byte; bits 4 and 5 are dropped. -/
def pulled (b : UInt8) : Flags where
  negative := bit b 7
  overflow := bit b 6
  decimal := bit b 3
  interrupt := bit b 2
  zero := bit b 1
  carry := bit b 0

/-- Zero and negative as an 8-bit result sets them. -/
@[inline] def result (f : Flags) (value : UInt8) : Flags :=
  { f with zero := value == 0, negative := signBit value }

/-- The carry as a number. -/
@[inline] def carryByte (f : Flags) : UInt8 := if f.carry then 1 else 0

/-- A pushed status byte gives the same flags back. -/
theorem pulled_pushed (f : Flags) (brk : Bool) : pulled (f.pushed brk) = f := by
  obtain ⟨n, v, d, i, z, c⟩ := f
  cases n <;> cases v <;> cases d <;> cases i <;> cases z <;> cases c <;> cases brk <;> rfl

end Flags
end Nes
