/-
  Volume envelopes and length counters.
-/
import Nes.Word

namespace Nes

/-- The volume of a pulse or noise channel: constant, or falling from 15 to 0. -/
structure Envelope where
  /-- The volume starts again at 15 after 0. Also stops the length counter. -/
  looping : Bool := false
  /-- The volume is `param`. -/
  constant : Bool := false
  /-- Constant volume, or how many clocks a volume is kept beyond one. -/
  param : Nat := 0
  /-- The next clock starts from 15. -/
  start : Bool := false
  divider : Nat := 0
  decay : Nat := 0
deriving DecidableEq, Inhabited

namespace Envelope

/-- A write of the control register's low six bits. -/
def write (e : Envelope) (value : UInt8) : Envelope :=
  { e with looping := bit value 5, constant := bit value 4, param := value.toNat % 16 }

/-- Starts over at the next clock. -/
def restart (e : Envelope) : Envelope := { e with start := true }

/-- The volume after `level`. -/
def fall (e : Envelope) (level : Nat) : Nat :=
  if level = 0 then (if e.looping then 15 else 0) else level - 1

/-- A quarter-frame clock. -/
def clock (e : Envelope) : Envelope :=
  if e.start then { e with start := false, decay := 15, divider := e.param }
  else if 0 < e.divider then { e with divider := e.divider - 1 }
  else { e with divider := e.param, decay := e.fall e.decay }

/-- The current volume. -/
def volume (e : Envelope) : Nat := if e.constant then e.param else e.decay

end Envelope

/-- Counts half frames until a channel falls silent. -/
structure LengthCounter where
  value : Nat := 0
deriving DecidableEq, Inhabited

namespace LengthCounter

/-- The lengths that a channel can be started with. -/
def table : Vector Nat 32 := #v[
  10, 254, 20, 2, 40, 4, 80, 6, 160, 8, 60, 10, 14, 12, 26, 14,
  12, 16, 24, 18, 48, 20, 96, 22, 192, 24, 72, 26, 16, 28, 32, 30]

/-- Loads the length chosen by the top five bits of a byte. Disabled channels stay silent. -/
def load (counter : LengthCounter) (value : UInt8) (enabled : Bool) : LengthCounter :=
  if enabled then ⟨table.get (wrap (value.toNat / 8))⟩ else counter

/-- What is left when a channel is switched on or off. -/
def gate (counter : LengthCounter) (enabled : Bool) : LengthCounter :=
  if enabled then counter else {}

/-- Whether the channel may sound. -/
@[inline] def active (counter : LengthCounter) : Bool := 0 < counter.value

/-- A half-frame clock. -/
def clock (counter : LengthCounter) (halt : Bool) : LengthCounter :=
  if halt then counter else ⟨counter.value - 1⟩

end LengthCounter
end Nes
