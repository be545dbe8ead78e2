/-
  Operands: how each addressing mode finds the byte an instruction works on.
-/
import Nes.Cpu.Basic
import Nes.Cpu.Opcode

namespace Nes

/-- What an instruction works on, after its operand bytes were read. -/
inductive Operand
  | implied
  | accumulator
  | immediate (value : UInt8)
  | address (addr : UInt16)
deriving DecidableEq, Inhabited

namespace Operand

/-- Where a jump or branch with this operand leads. -/
def target : Operand → UInt16
  | address addr => addr
  | immediate value => value.toUInt16
  | implied | accumulator => 0

/-- An indexed address, and whether indexing left the page. -/
@[inline] def indexed (base : UInt16) (index : UInt8) : Operand × Bool :=
  let addr := base + index.toUInt16
  (address addr, highByte base != highByte addr)

/-- A signed offset as a word. -/
@[inline] def signed (offset : UInt8) : UInt16 :=
  if signBit offset then offset.toUInt16 + 0xFF00 else offset.toUInt16

end Operand

/-- Reads the operand bytes of an instruction. The flag tells whether indexing, or a branch,
    leaves the page. -/
@[specialize] def Machine.operand {σ : Type} [Bus σ] (m : Machine σ) :
    Mode → (Operand × Bool) × Machine σ
  | .implied => ((.implied, false), m)
  | .accumulator => ((.accumulator, false), m)
  | .immediate =>
    let (value, m) := m.fetch
    ((.immediate value, false), m)
  | .zeroPage =>
    let (addr, m) := m.fetch
    ((.address addr.toUInt16, false), m)
  | .zeroPageX =>
    let (addr, m) := m.fetch
    ((.address (addr + m.cpu.x).toUInt16, false), m)
  | .zeroPageY =>
    let (addr, m) := m.fetch
    ((.address (addr + m.cpu.y).toUInt16, false), m)
  | .absolute =>
    let (addr, m) := m.fetchWord
    ((.address addr, false), m)
  | .absoluteX =>
    let (base, m) := m.fetchWord
    (Operand.indexed base m.cpu.x, m)
  | .absoluteY =>
    let (base, m) := m.fetchWord
    (Operand.indexed base m.cpu.y, m)
  | .indirect =>
    -- the high byte is read from the same page as the low byte
    let (pointer, m) := m.fetchWord
    let (lo, m) := m.read pointer
    let (hi, m) := m.read (word (lowByte pointer + 1) (highByte pointer))
    ((.address (word lo hi), false), m)
  | .indirectX =>
    let (pointer, m) := m.fetch
    let (addr, m) := m.readZeroPageWord (pointer + m.cpu.x)
    ((.address addr, false), m)
  | .indirectY =>
    let (pointer, m) := m.fetch
    let (base, m) := m.readZeroPageWord pointer
    (Operand.indexed base m.cpu.y, m)
  | .relative =>
    let (offset, m) := m.fetch
    let addr := m.cpu.pc + Operand.signed offset
    ((.address addr, highByte m.cpu.pc != highByte addr), m)

end Nes
