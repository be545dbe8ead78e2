/-
  The noise channel: a shift register of fifteen bits that feeds back on itself.
-/
import Nes.Apu.Envelope
import Nes.Apu.Sequencer
import Nes.Apu.Timer

namespace Nes

/-- The noise channel. -/
structure Noise where
  /-- The short sequence, which sounds metallic. -/
  short : Bool := false
  periodIndex : Fin 16 := wrap 0
  register : UInt16 := 1
  timer : SampleTimer := {}
  envelope : Envelope := {}
  length : LengthCounter := {}
  enabled : Bool := false
deriving DecidableEq, Inhabited

namespace Noise

/-- Cycles between two shifts. -/
def periods : Vector Nat 16 := #v[
  4, 8, 16, 32, 64, 96, 128, 160, 202, 254, 380, 508, 762, 1016, 2034, 4068]

/-- A write to the control register. -/
def writeControl (n : Noise) (value : UInt8) : Noise :=
  { n with envelope := n.envelope.write value }

/-- A write of the period. -/
def writePeriod (n : Noise) (value : UInt8) : Noise :=
  { n with short := bit value 7, periodIndex := wrap value.toNat }

/-- A write of the length. -/
def writeLength (n : Noise) (value : UInt8) : Noise :=
  { n with length := n.length.load value n.enabled, envelope := n.envelope.restart }

/-- Switches the channel on or off. -/
def setEnabled (n : Noise) (enabled : Bool) : Noise :=
  { n with enabled, length := n.length.gate enabled }

/-- The register after one shift. Bit 0 and one other bit feed the top. -/
@[inline] def shifted (short : Bool) (register : UInt16) : UInt16 :=
  let tap := if short then register >>> 6 else register >>> 1
  register >>> 1 ||| ((register ^^^ tap) &&& 1) <<< 14

/-- The register after `count` shifts. -/
def shiftedBy (short : Bool) (register : UInt16) : (count : Nat) → UInt16
  | 0 => register
  | count + 1 => shiftedBy short (shifted short register) count

/-- The clocks at the start of a slice. -/
def clock (n : Noise) (c : FrameClock) : Noise :=
  let n := if c.quarter then { n with envelope := n.envelope.clock } else n
  if c.half then { n with length := n.length.clock n.envelope.looping } else n

/-- The current level. -/
def level (n : Noise) : Nat :=
  if n.enabled && n.length.active && n.register &&& 1 == 0 then n.envelope.volume else 0

/-- Lets one sample pass. -/
def sample (n : Noise) : Nat × Noise :=
  let (steps, timer) := n.timer.tick (periods.get n.periodIndex)
  let n := { n with timer, register := shiftedBy n.short n.register steps }
  (n.level, n)

/-- The levels of one slice. -/
def slice (n : Noise) (c : FrameClock) : Array Nat × Noise :=
  takeSamples sample (n.clock c) #[] sliceSamples

end Noise
end Nes
