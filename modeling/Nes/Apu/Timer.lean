/-
  From CPU cycles to samples: how many steps of a channel fall into one sample.

  Cycles are counted in units of 1/65536, since a sample is no whole number of them.
-/

namespace Nes

/-- CPU clock of an NTSC console in Hz. -/
def cpuClock : Nat := 1789773

/-- Samples per second. -/
def sampleRate : Nat := 22080

/-- Samples in one slice of sound. -/
def sliceSamples : Nat := 92

/-- Slices in one frame. -/
def slicesPerFrame : Nat := 4

/-- One cycle in timer units. -/
def cycleUnit : Nat := 0x10000

/-- Timer units of one sample. -/
def sampleUnits : Nat := cpuClock * cycleUnit / sampleRate

/-- Divides samples into the steps of a channel. What is left over is kept, also when the
    length of a step changes. -/
structure SampleTimer where
  rest : Nat := 0
deriving DecidableEq, Inhabited

namespace SampleTimer

/-- Lets one sample pass; gives the number of steps of `period` cycles that ended in it. -/
@[inline] def tick (timer : SampleTimer) (period : Nat) : Nat × SampleTimer :=
  let length := max period 1 * cycleUnit
  let total := timer.rest + sampleUnits
  (total / length, ⟨total % length⟩)

end SampleTimer

/-- Takes `count` samples from a channel, after those in `out`. -/
@[specialize] def takeSamples {S : Type} (sample : S → Nat × S) (channel : S)
    (out : Array Nat) : (count : Nat) → Array Nat × S
  | 0 => (out, channel)
  | count + 1 =>
    let (level, channel) := sample channel
    takeSamples sample channel (out.push level) count

end Nes
