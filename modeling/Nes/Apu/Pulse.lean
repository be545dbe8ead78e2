/-
  The pulse channels: square waves of four duties, with a sweep of the pitch.
-/
import Nes.Apu.Envelope
import Nes.Apu.Sequencer
import Nes.Apu.Timer

namespace Nes

/-- How a sweep down is subtracted. -/
inductive Negation
  /-- One more than the difference, as the first channel does. -/
  | onesComplement
  /-- The difference itself, as the second channel does. -/
  | twosComplement
deriving DecidableEq, Inhabited

/-- The largest period of eleven bits. -/
def maxPeriod : Nat := 0x7FF

/-- Changes the period of a pulse channel step by step. -/
structure Sweep where
  negation : Negation
  enabled : Bool := false
  /-- The period falls. -/
  down : Bool := false
  shift : Nat := 0
  /-- Half frames between two changes, less one. -/
  period : Nat := 0
  divider : Nat := 0
  /-- The next clock starts the divider over. -/
  reload : Bool := false
deriving DecidableEq, Inhabited

namespace Sweep

/-- A write to the sweep register. -/
def write (s : Sweep) (value : UInt8) : Sweep :=
  { s with
    enabled := bit value 7
    period := value.toNat / 16 % 8
    down := bit value 3
    shift := value.toNat % 8
    reload := true }

/-- The period after one more change. -/
def target (s : Sweep) (period : Nat) : Nat :=
  let delta := period >>> s.shift
  if !s.down then period + delta
  else match s.negation with
    | .onesComplement => period - (delta + 1)
    | .twosComplement => period - delta

/-- Whether the channel is silent: its period is too short, or would become too long. -/
def mutes (s : Sweep) (period : Nat) : Bool := period < 8 || maxPeriod < s.target period

/-- A half-frame clock: gives the new period and sweep. -/
def clock (s : Sweep) (period : Nat) : Nat × Sweep :=
  let changes := s.divider == 0 && s.enabled && 0 < s.shift && !s.mutes period
  let next := if changes then s.target period else period
  if s.divider = 0 ∨ s.reload then (next, { s with divider := s.period, reload := false })
  else (next, { s with divider := s.divider - 1 })

end Sweep

/-- A pulse channel. -/
structure Pulse where
  sweep : Sweep
  duty : Fin 4 := wrap 0
  /-- Position in the duty sequence. -/
  step : Fin 8 := wrap 0
  /-- One step takes `2 * (period + 1)` cycles. -/
  period : Nat := 0
  timer : SampleTimer := {}
  envelope : Envelope := {}
  length : LengthCounter := {}
  enabled : Bool := false
deriving DecidableEq, Inhabited

namespace Pulse

/-- The waveforms: one eighth, a quarter, a half, and a quarter upside down. -/
def dutyTable : Vector (Vector Bool 8) 4 := #v[
  #v[false, false, false, false, false, false, false, true],
  #v[false, false, false, false, false, false, true, true],
  #v[false, false, false, false, true, true, true, true],
  #v[true, true, true, true, true, true, false, false]]

/-- A silent channel. -/
def silent (negation : Negation) : Pulse := { sweep := { negation } }

/-- A write to the control register. -/
def writeControl (p : Pulse) (value : UInt8) : Pulse :=
  { p with
    duty := wrap (value.toNat / 64)
    envelope := p.envelope.write value }

/-- A write to the sweep register. -/
def writeSweep (p : Pulse) (value : UInt8) : Pulse := { p with sweep := p.sweep.write value }

/-- A write of the low byte of the period. The wave goes on where it is. -/
def writeTimerLow (p : Pulse) (value : UInt8) : Pulse :=
  { p with period := p.period / 256 * 256 + value.toNat }

/-- A write of the length and of the high bits of the period. The wave starts over. -/
def writeTimerHigh (p : Pulse) (value : UInt8) : Pulse :=
  { p with
    period := value.toNat % 8 * 256 + p.period % 256
    length := p.length.load value p.enabled
    step := wrap 0
    envelope := p.envelope.restart
    sweep := { p.sweep with reload := true } }

/-- Switches the channel on or off. -/
def setEnabled (p : Pulse) (enabled : Bool) : Pulse :=
  { p with enabled, length := p.length.gate enabled }

/-- The clocks at the start of a slice. -/
def clock (p : Pulse) (c : FrameClock) : Pulse :=
  let p := if c.quarter then { p with envelope := p.envelope.clock } else p
  if c.half then
    let (period, sweep) := p.sweep.clock p.period
    { p with length := p.length.clock p.envelope.looping, period, sweep }
  else p

/-- Whether the wave can be heard. -/
def audible (p : Pulse) : Bool := p.enabled && p.length.active && !p.sweep.mutes p.period

/-- The current level. -/
def level (p : Pulse) : Nat :=
  if p.audible && (dutyTable.get p.duty).get p.step then p.envelope.volume else 0

/-- Lets one sample pass. -/
def sample (p : Pulse) : Nat × Pulse :=
  let (steps, timer) := p.timer.tick (2 * (p.period + 1))
  let p := { p with timer, step := wrap (p.step + steps) }
  (p.level, p)

/-- The levels of one slice. -/
def slice (p : Pulse) (c : FrameClock) : Array Nat × Pulse :=
  takeSamples sample (p.clock c) #[] sliceSamples

end Pulse
end Nes
