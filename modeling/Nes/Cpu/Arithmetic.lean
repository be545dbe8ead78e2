/-
  What the instructions compute: shifts, binary addition and comparison, with their flags.
-/
import Nes.Cpu.Basic

namespace Nes

namespace Flags

/-- Shift left; the top bit goes to the carry. -/
def asl (f : Flags) (value : UInt8) : UInt8 × Flags :=
  let shifted := value <<< 1
  (shifted, { f with carry := signBit value }.result shifted)

/-- Shift right; the bottom bit goes to the carry. -/
def lsr (f : Flags) (value : UInt8) : UInt8 × Flags :=
  let shifted := value >>> 1
  (shifted, { f with carry := bit value 0 }.result shifted)

/-- Rotation to the left through the carry. -/
def rol (f : Flags) (value : UInt8) : UInt8 × Flags :=
  let shifted := value <<< 1 ||| f.carryByte
  (shifted, { f with carry := signBit value }.result shifted)

/-- Rotation to the right through the carry. -/
def ror (f : Flags) (value : UInt8) : UInt8 × Flags :=
  let shifted := value >>> 1 ||| f.carryByte <<< 7
  (shifted, { f with carry := bit value 0 }.result shifted)

/-- One more, with its flags. -/
def inc (f : Flags) (value : UInt8) : UInt8 × Flags := (value + 1, f.result (value + 1))

/-- One less, with its flags. -/
def dec (f : Flags) (value : UInt8) : UInt8 × Flags := (value - 1, f.result (value - 1))

/-- The flags of a comparison: the carry says that the register is not less. -/
def compare (f : Flags) (register value : UInt8) : Flags :=
  { f with carry := value ≤ register }.result (register - value)

end Flags

namespace Cpu

/-- Adds to the accumulator with carry. Subtraction adds the complement. -/
def add (cpu : Cpu) (value : UInt8) : Cpu :=
  let sum := cpu.a.toNat + value.toNat + cpu.flags.carry.toNat
  let total := UInt8.ofNat sum
  { cpu with
    a := total
    flags := { cpu.flags with
      carry := 0xFF < sum
      overflow := signBit cpu.a == signBit value && signBit cpu.a != signBit total
      }.result total }

/-- Loads the accumulator. -/
def setA (cpu : Cpu) (value : UInt8) : Cpu :=
  { cpu with a := value, flags := cpu.flags.result value }

/-- Loads the X register. -/
def setX (cpu : Cpu) (value : UInt8) : Cpu :=
  { cpu with x := value, flags := cpu.flags.result value }

/-- Loads the Y register. -/
def setY (cpu : Cpu) (value : UInt8) : Cpu :=
  { cpu with y := value, flags := cpu.flags.result value }

/-- The accumulator and an operand, shifted right through the carry. Carry and overflow come
    from bits 6 and 5 of the result. -/
def arr (cpu : Cpu) (value : UInt8) : Cpu :=
  let shifted := (cpu.a &&& value) >>> 1 ||| cpu.flags.carryByte <<< 7
  { cpu with
    a := shifted
    flags := { cpu.flags with
      carry := bit shifted 6, overflow := bit shifted 6 != bit shifted 5 }.result shifted }

/-- The X register becomes what accumulator and X have in common, less an operand. -/
def sbx (cpu : Cpu) (value : UInt8) : Cpu :=
  let common := cpu.a &&& cpu.x
  { cpu with x := common - value, flags := cpu.flags.compare common value }

end Cpu
end Nes
