/-
  When written save RAM is handed out for storage: after a second without a write, or after
  ten seconds of being out of date.
-/

namespace Nes

/-- Frames without a write after which a save is due. -/
def idleLimit : Nat := 60

/-- Frames out of date after which a save is due in any case. -/
def staleLimit : Nat := 600

/-- Follows the write count of save RAM from frame to frame. -/
structure SaveSchedule where
  /-- Write count at the end of the last frame. -/
  lastSeen : UInt32 := 0
  /-- Write count of the last image that was stored. -/
  stored : UInt32 := 0
  /-- Frames since the last write. -/
  idle : Nat := 0
  /-- Frames since the stored image fell out of date. -/
  stale : Nat := 0
deriving DecidableEq, Inhabited

namespace SaveSchedule

/-- Nothing has changed since write count `count`. -/
def fresh (count : UInt32) : SaveSchedule := { lastSeen := count, stored := count }

/-- Whether there were writes since the last stored image. -/
def isStale (schedule : SaveSchedule) (count : UInt32) : Bool := count != schedule.stored

/-- Ends a frame at write count `count`; the answer says whether a save is due now. -/
def endFrame (schedule : SaveSchedule) (count : UInt32) : Bool × SaveSchedule :=
  if count = schedule.stored then (false, fresh count)
  else
    let idle := if count = schedule.lastSeen then schedule.idle + 1 else 0
    let stale := schedule.stale + 1
    if idleLimit ≤ idle ∨ staleLimit ≤ stale then (true, fresh count)
    else (false, { schedule with lastSeen := count, idle, stale })

end SaveSchedule
end Nes
