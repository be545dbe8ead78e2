/-
  The triangle channel and its linear counter.
-/
import Nes.Apu.Envelope
import Nes.Apu.Sequencer
import Nes.Apu.Timer

namespace Nes

/-- The triangle channel. -/
structure Triangle where
  /-- Stops the length counter and keeps the linear counter loading. -/
  control : Bool := false
  linearPeriod : Nat := 0
  linear : Nat := 0
  linearReload : Bool := false
  /-- One step takes `period + 1` cycles. -/
  period : Nat := 0
  /-- Position in the wave. -/
  step : Fin 32 := wrap 0
  timer : SampleTimer := {}
  length : LengthCounter := {}
  enabled : Bool := false
deriving DecidableEq, Inhabited

namespace Triangle

/-- A write to the linear counter's register. -/
def writeLinear (t : Triangle) (value : UInt8) : Triangle :=
  { t with control := bit value 7, linearPeriod := value.toNat % 128 }

/-- A write of the low byte of the period. The wave goes on where it is. -/
def writeTimerLow (t : Triangle) (value : UInt8) : Triangle :=
  { t with period := t.period / 256 * 256 + value.toNat }

/-- A write of the length and of the high bits of the period. -/
def writeTimerHigh (t : Triangle) (value : UInt8) : Triangle :=
  { t with
    period := value.toNat % 8 * 256 + t.period % 256
    length := t.length.load value t.enabled
    linearReload := true }

/-- Switches the channel on or off. -/
def setEnabled (t : Triangle) (enabled : Bool) : Triangle :=
  { t with enabled, length := t.length.gate enabled }

/-- A quarter-frame clock of the linear counter. -/
def clockLinear (t : Triangle) : Triangle :=
  { t with
    linear := if t.linearReload then t.linearPeriod else t.linear - 1
    linearReload := t.linearReload && t.control }

/-- The clocks at the start of a slice. -/
def clock (t : Triangle) (c : FrameClock) : Triangle :=
  let t := if c.quarter then t.clockLinear else t
  if c.half then { t with length := t.length.clock t.control } else t

/-- Whether the wave moves. A channel that is silent, or too high to be heard, keeps its
    level. -/
def running (t : Triangle) : Bool :=
  t.enabled && t.length.active && 0 < t.linear && 2 ≤ t.period

/-- The current level: down from 15 to 0 and up again. -/
def level (t : Triangle) : Nat := if t.step.val < 16 then 15 - t.step.val else t.step.val - 16

/-- Lets one sample pass. -/
def sample (t : Triangle) : Nat × Triangle :=
  if t.running then
    let (steps, timer) := t.timer.tick (t.period + 1)
    let t := { t with timer, step := wrap (t.step + steps) }
    (t.level, t)
  else (t.level, t)

/-- The levels of one slice. -/
def slice (t : Triangle) (c : FrameClock) : Array Nat × Triangle :=
  takeSamples sample (t.clock c) #[] sliceSamples

end Triangle
end Nes
