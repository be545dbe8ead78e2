/-
  When the next frame is due, and how many frames to skip when the host is late. All times are
  in nanoseconds after one fixed moment.

  A clock cannot tell all moments. `plan?` is `plan` on a clock that ends.
-/
import Nes.Console.Basic

namespace Nes

/-- Duration of a frame on a television. -/
def televisionFrame : Nat := 16639263

/-- The longest duration that can be told, one nanosecond short of 2^64 seconds. -/
def longestDuration : Nat := 18446744073709551615999999999

/-- A schedule of frames. -/
structure Pacer where
  /-- Duration of a frame. -/
  frame : Nat := televisionFrame
  /-- When the next frame is due; unknown before the first one. -/
  deadline : Option Nat := none
deriving DecidableEq, Inhabited

namespace Pacer

/-- Time until the next frame is due. -/
def remaining (pacer : Pacer) (now : Nat) : Nat :=
  match pacer.deadline with
  | some deadline => deadline - now
  | none => 0

/-- Takes the frame that is due; gives how many frames to skip before it. A host that is later
    than the console can skip starts a new schedule. -/
def plan (pacer : Pacer) (now : Nat) : Nat × Pacer :=
  let deadline := pacer.deadline.getD now
  if now ≤ deadline ∨ pacer.frame = 0 then
    (0, { pacer with deadline := some (deadline + pacer.frame) })
  else
    let late := (now - deadline) / pacer.frame
    if skipLimit < late then (skipLimit, { pacer with deadline := some (now + pacer.frame) })
    else (late, { pacer with deadline := some (deadline + pacer.frame * (late + 1)) })

/-- `plan` on a clock whose last moment is `last`. There is no plan if the clock or a duration
    cannot tell when the next frame is due; a schedule that starts with this frame has then
    started. -/
def plan? (pacer : Pacer) (last now : Nat) : Option Nat × Pacer :=
  let deadline := pacer.deadline.getD now
  let started : Pacer := { pacer with deadline := some deadline }
  let next (skips moment : Nat) : Option Nat × Pacer :=
    if moment ≤ last then (some skips, { pacer with deadline := some moment }) else (none, started)
  if now ≤ deadline ∨ pacer.frame = 0 then next 0 (deadline + pacer.frame)
  else
    let late := (now - deadline) / pacer.frame
    if skipLimit < late then next skipLimit (now + pacer.frame)
    else
      let frames := pacer.frame * (late + 1)
      if frames ≤ longestDuration then next late (deadline + frames) else (none, started)

/-- Forgets the schedule. -/
def reset (pacer : Pacer) : Pacer := { pacer with deadline := none }

end Pacer
end Nes
