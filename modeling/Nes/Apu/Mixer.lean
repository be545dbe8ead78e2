/-
  The mixer: levels of the five channels to one sample. It is not linear, as the hardware's
  resistor networks are not; tables and sums are in single precision.
-/

namespace Nes.Mixer

/-- Output of the pulse channels for the sum of their levels. -/
def pulseTable : Vector Float32 31 :=
  Vector.ofFn fun n => if n = 0 then 0 else 95.52 / (8128 / n.val.toFloat32 + 100)

/-- Output of the other channels for the weighted sum of their levels. -/
def otherTable : Vector Float32 203 :=
  Vector.ofFn fun n => if n = 0 then 0 else 163.67 / (24329 / n.val.toFloat32 + 100)

/-- Index into `pulseTable`. -/
def pulseIndex (pulse1 pulse2 : Nat) : Nat := pulse1 + pulse2

/-- Index into `otherTable`. -/
def otherIndex (triangle noise dmc : Nat) : Nat := 3 * triangle + 2 * noise + dmc

/-- The sample for the levels of all channels. -/
def mix (pulse1 pulse2 triangle noise dmc : Nat) : UInt8 :=
  let pulse := pulseTable.get ⟨min (pulseIndex pulse1 pulse2) 30, by omega⟩
  let other := otherTable.get ⟨min (otherIndex triangle noise dmc) 202, by omega⟩
  ((pulse + other) * 255).round.toUInt8

end Nes.Mixer
