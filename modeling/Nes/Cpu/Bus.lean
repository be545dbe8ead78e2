/-
  What a CPU is wired to.

  Accesses never fail. An access may change the state behind the bus, so each gives back the
  new state. Interrupt sources are asked once per instruction.
-/

namespace Nes

/-- A bus with state `σ`. -/
class Bus (σ : Type) where
  /-- Reads a byte. -/
  read : σ → UInt16 → UInt8 × σ
  /-- Writes a byte. -/
  write : σ → UInt16 → UInt8 → σ
  /-- Takes a latched NMI edge, which is gone after that. -/
  takeNmi : σ → Bool × σ
  /-- Whether any device holds the IRQ line. -/
  irq : σ → Bool
  /-- Takes the cycles the CPU has to wait for, such as those of a sprite DMA. -/
  takeStall : σ → Nat × σ

end Nes
