/-
  The audio processing unit: five channels, their registers, and the slices of sound they give.
-/
import Nes.Apu.Dmc
import Nes.Apu.Mixer
import Nes.Apu.Noise
import Nes.Apu.Pulse
import Nes.Apu.Triangle
import Nes.Bytes
import Nes.Cpu.Basic

namespace Nes

/-- The registers of the APU. -/
inductive ApuRegister
  | pulse1Control
  | pulse1Sweep
  | pulse1TimerLow
  | pulse1TimerHigh
  | pulse2Control
  | pulse2Sweep
  | pulse2TimerLow
  | pulse2TimerHigh
  | triangleLinear
  | triangleTimerLow
  | triangleTimerHigh
  | noiseControl
  | noisePeriod
  | noiseLength
  | dmcControl
  | dmcLevel
  | dmcAddress
  | dmcLength
  | status
  | frameCounter
deriving DecidableEq, Inhabited

/-- The register at a CPU address. Sprite DMA and the pads are not the APU's. -/
def ApuRegister.ofAddress? (addr : UInt16) : Option ApuRegister :=
  match addr.toNat with
  | 0x4000 => some pulse1Control
  | 0x4001 => some pulse1Sweep
  | 0x4002 => some pulse1TimerLow
  | 0x4003 => some pulse1TimerHigh
  | 0x4004 => some pulse2Control
  | 0x4005 => some pulse2Sweep
  | 0x4006 => some pulse2TimerLow
  | 0x4007 => some pulse2TimerHigh
  | 0x4008 => some triangleLinear
  | 0x400A => some triangleTimerLow
  | 0x400B => some triangleTimerHigh
  | 0x400C => some noiseControl
  | 0x400E => some noisePeriod
  | 0x400F => some noiseLength
  | 0x4010 => some dmcControl
  | 0x4011 => some dmcLevel
  | 0x4012 => some dmcAddress
  | 0x4013 => some dmcLength
  | 0x4015 => some status
  | 0x4017 => some frameCounter
  | _ => none

/-- The audio processing unit. -/
structure Apu where
  pulse1 : Pulse := .silent .onesComplement
  pulse2 : Pulse := .silent .twosComplement
  triangle : Triangle := {}
  noise : Noise := {}
  dmc : Dmc := {}
  sequencer : Sequencer := {}
deriving DecidableEq, Inhabited

namespace Apu

/-- A write to $4015 switches the channels on and off. -/
def writeStatus (apu : Apu) (value : UInt8) : Apu :=
  { apu with
    pulse1 := apu.pulse1.setEnabled (bit value 0)
    pulse2 := apu.pulse2.setEnabled (bit value 1)
    triangle := apu.triangle.setEnabled (bit value 2)
    noise := apu.noise.setEnabled (bit value 3)
    dmc := apu.dmc.setEnabled (bit value 4) }

/-- A read of $4015: the channels that are still active, and the IRQs. The sequencer's IRQ is
    withdrawn. -/
def readStatus (apu : Apu) : UInt8 × Apu :=
  let flag (on : Bool) (mask : UInt8) : UInt8 := if on then mask else 0
  (flag apu.pulse1.length.active 0x01 ||| flag apu.pulse2.length.active 0x02 |||
      flag apu.triangle.length.active 0x04 ||| flag apu.noise.length.active 0x08 |||
      flag apu.dmc.active 0x10 ||| flag apu.sequencer.irq 0x40 ||| flag apu.dmc.irq 0x80,
    { apu with sequencer := apu.sequencer.clearIrq })

/-- Starts over. The reset button silences the channels and withdraws all IRQs. -/
def reset (apu : Apu) : ResetKind → Apu
  | .power => {}
  | .soft =>
    let apu := apu.writeStatus 0
    { apu with sequencer := apu.sequencer.clearIrq }

/-- A write to one of the registers. -/
def writeRegister (apu : Apu) (register : ApuRegister) (value : UInt8) : Apu :=
  match register with
  | .pulse1Control => { apu with pulse1 := apu.pulse1.writeControl value }
  | .pulse1Sweep => { apu with pulse1 := apu.pulse1.writeSweep value }
  | .pulse1TimerLow => { apu with pulse1 := apu.pulse1.writeTimerLow value }
  | .pulse1TimerHigh => { apu with pulse1 := apu.pulse1.writeTimerHigh value }
  | .pulse2Control => { apu with pulse2 := apu.pulse2.writeControl value }
  | .pulse2Sweep => { apu with pulse2 := apu.pulse2.writeSweep value }
  | .pulse2TimerLow => { apu with pulse2 := apu.pulse2.writeTimerLow value }
  | .pulse2TimerHigh => { apu with pulse2 := apu.pulse2.writeTimerHigh value }
  | .triangleLinear => { apu with triangle := apu.triangle.writeLinear value }
  | .triangleTimerLow => { apu with triangle := apu.triangle.writeTimerLow value }
  | .triangleTimerHigh => { apu with triangle := apu.triangle.writeTimerHigh value }
  | .noiseControl => { apu with noise := apu.noise.writeControl value }
  | .noisePeriod => { apu with noise := apu.noise.writePeriod value }
  | .noiseLength => { apu with noise := apu.noise.writeLength value }
  | .dmcControl => { apu with dmc := apu.dmc.writeControl value }
  | .dmcLevel => { apu with dmc := apu.dmc.writeLevel value }
  | .dmcAddress => { apu with dmc := apu.dmc.writeAddress value }
  | .dmcLength => { apu with dmc := apu.dmc.writeLength value }
  | .status => apu.writeStatus value
  | .frameCounter => { apu with sequencer := apu.sequencer.write value }

/-- A write to a CPU address; addresses without a register are ignored. -/
def write (apu : Apu) (addr : UInt16) (value : UInt8) : Apu :=
  match ApuRegister.ofAddress? addr with
  | some register => apu.writeRegister register value
  | none => apu

/-- Whether the APU holds the IRQ line. -/
@[inline] def irq (apu : Apu) : Bool := apu.sequencer.irq || apu.dmc.irq

/-- A slice of sound, and the addresses that the DMC read for it. -/
structure Slice where
  samples : Bytes
  fetched : Array UInt16

/-- Mixes the levels of the channels sample by sample. -/
def mixLevels (pulse1 pulse2 triangle noise dmc : Array Nat) : Bytes :=
  (Array.range sliceSamples).map fun i =>
    Mixer.mix (pulse1.getD i 0) (pulse2.getD i 0) (triangle.getD i 0) (noise.getD i 0)
      (dmc.getD i 0)

/-- Takes one step of the sequencer and renders one slice. The DMC reads CPU memory through
    `reader`. -/
def slice (apu : Apu) (reader : UInt16 → UInt8) : Slice × Apu :=
  let next := apu.sequencer.next
  let pulse1 := apu.pulse1.slice next.1
  let pulse2 := apu.pulse2.slice next.1
  let triangle := apu.triangle.slice next.1
  let noise := apu.noise.slice next.1
  let dmc := apu.dmc.slice reader
  let samples := mixLevels pulse1.1 pulse2.1 triangle.1 noise.1 dmc.1.levels
  (⟨samples, dmc.1.fetched⟩, ⟨pulse1.2, pulse2.2, triangle.2, noise.2, dmc.2, next.2⟩)

end Apu
end Nes
