/-
  The frame sequencer: which clocks the channels get at the start of each slice.
-/
import Nes.Word

namespace Nes

/-- The clocks of one slice. -/
structure FrameClock where
  /-- For envelopes and the triangle's linear counter. -/
  quarter : Bool
  /-- For length counters and sweeps. -/
  half : Bool
deriving DecidableEq, Inhabited

/-- Length of the sequence. -/
inductive FrameMode
  | fourStep
  | fiveStep
deriving DecidableEq, Inhabited

/-- The frame sequencer. -/
structure Sequencer where
  mode : FrameMode := .fourStep
  step : Nat := 0
  /-- The sequence raises no IRQ. -/
  inhibit : Bool := false
  /-- The sequence has raised an IRQ. -/
  irq : Bool := false
deriving DecidableEq, Inhabited

namespace Sequencer

/-- A write to $4017. The sequence starts over. -/
def write (s : Sequencer) (value : UInt8) : Sequencer where
  mode := if bit value 7 then .fiveStep else .fourStep
  step := 0
  inhibit := bit value 6
  irq := s.irq && !bit value 6

/-- Withdraws the IRQ. -/
def clearIrq (s : Sequencer) : Sequencer := { s with irq := false }

/-- Takes one step. The sequence of four raises an IRQ when it starts over. -/
def next (s : Sequencer) : FrameClock × Sequencer :=
  match s.mode with
  | .fourStep =>
    let step := (s.step + 1) % 4
    ({ quarter := true, half := s.step % 2 == 1 },
      { s with step, irq := s.irq || (step == 0 && !s.inhibit) })
  | .fiveStep =>
    ({ quarter := s.step != 3, half := s.step == 1 || s.step == 4 },
      { s with step := (s.step + 1) % 5 })

end Sequencer
end Nes
