/-
  A pad behind $4016 and $4017.

  Buttons arrive once per frame. Every press since the last poll is kept, so that one shorter
  than a frame still reaches a game that polls late.
-/
import Nes.Word

namespace Nes

/-- Buttons in the order of the pad's shift register. -/
inductive Button
  | a
  | b
  | select
  | start
  | up
  | down
  | left
  | right
deriving DecidableEq, Inhabited

namespace Button

/-- All buttons, first shifted out first. -/
def all : List Button := [a, b, select, start, up, down, left, right]

/-- Position in the shift register. -/
def index : Button → Nat
  | a => 0
  | b => 1
  | select => 2
  | start => 3
  | up => 4
  | down => 5
  | left => 6
  | right => 7

/-- The button's bit in a mask of held buttons. -/
def mask (button : Button) : UInt8 := 1 <<< UInt8.ofNat button.index

end Button

/-- The shift register of one pad. -/
structure Controller where
  strobe : Bool := false
  /-- Buttons held in this frame. -/
  held : UInt8 := 0
  /-- Buttons seen held since the last poll. -/
  seen : UInt8 := 0
  /-- Bits already shifted out, at most eight. -/
  shifted : Nat := 0
deriving DecidableEq, Inhabited

namespace Controller

/-- Takes over the buttons held in this frame. -/
def setButtons (pad : Controller) (mask : UInt8) : Controller :=
  { pad with held := mask, seen := pad.seen ||| mask }

/-- Writes the strobe. When it falls, the bits are shifted out from the first again and
    presses that are over are forgotten. -/
def writeStrobe (pad : Controller) (data : UInt8) : Controller :=
  let strobe := bit data 0
  if pad.strobe && !strobe then { pad with strobe, seen := 0, shifted := 0 }
  else { pad with strobe }

/-- Shifts out one bit; the lines above it float high. A held strobe keeps the first button
    at the output, and after the eighth button only ones follow. -/
def read (pad : Controller) : UInt8 × Controller :=
  let position := if pad.strobe then 0 else pad.shifted
  let pressed := if position < 8 then bit (pad.held ||| pad.seen) position else true
  (if pressed then 0x41 else 0x40, { pad with shifted := min (position + 1) 8 })

end Controller
end Nes
