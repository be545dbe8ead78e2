/-
  A schedule of frames over any number of calls.

  `plan_cases` says all that a call does: it comes in time, it is late by fewer than five frames
  and skips those that are over, or it is later than the console can skip and starts a new
  schedule at its own time. `Planned` is what a call leaves behind.

  A call that keeps the schedule accounts for the slot of its own frame and for one more with each
  frame that it skips, and the next frame is due right behind them (`next_eq`). So until a call
  starts a new schedule, the slots of all calls are those since the first one, each of them once,
  and the time of the next frame is told by their number (`accounts_calls`, by induction on the
  calls). The calls need not come in the order of time for that.
-/
import Nes.Host.Pacer

namespace Nes

namespace Pacer

/-- When the frame of a call at `now` is due. The first one is due at once. -/
def due (pacer : Pacer) (now : Nat) : Nat := pacer.deadline.getD now

/-- A call: when it was made and when its frame was due, how many frames it skips, and when the
    next frame is due. -/
structure Planned where
  now : Nat
  due : Nat
  skips : Nat
  next : Nat
deriving DecidableEq

/-- A call at `now`. -/
def planned (pacer : Pacer) (now : Nat) : Planned where
  now := now
  due := pacer.due now
  skips := (pacer.plan now).1
  next := (pacer.plan now).2.due now

/-- The calls at some times, one after the other. -/
def calls (pacer : Pacer) : List Nat → List Planned
  | [] => []
  | now :: times => pacer.planned now :: calls (pacer.plan now).2 times

/-- The pacer after calls. -/
def after (pacer : Pacer) (times : List Nat) : Pacer :=
  times.foldl (fun pacer now => (pacer.plan now).2) pacer

namespace Planned

/-- The slots that a call accounts for, if it keeps the schedule: that of its frame, and those of
    the frames that it skips. -/
def slots (frame : Nat) (call : Planned) : List Nat :=
  (List.range (call.skips + 1)).map (call.due + frame * ·)

/-- The call starts a new schedule at its own time, off the old one. -/
def StartsOver (frame : Nat) (call : Planned) : Prop :=
  call.next = call.now + frame ∧ call.next ≠ call.due + frame * (call.skips + 1)

instance (frame : Nat) (call : Planned) : Decidable (call.StartsOver frame) :=
  inferInstanceAs (Decidable (_ ∧ _))

/-- How many slots some calls account for: one for each, and those that they skip. -/
def count : List Planned → Nat
  | [] => 0
  | call :: calls => call.skips + 1 + count calls

end Planned

/-! ## A call -/

/-- All that a call can do. -/
theorem plan_cases {pacer : Pacer} (positive : 0 < pacer.frame) (now : Nat) :
    (now ≤ pacer.due now ∧
      pacer.plan now = (0, { pacer with deadline := some (pacer.due now + pacer.frame) })) ∨
    (∃ late, pacer.due now < now ∧ late ≤ skipLimit ∧
      pacer.due now + pacer.frame * late ≤ now ∧
      now < pacer.due now + pacer.frame * (late + 1) ∧
      pacer.plan now =
        (late, { pacer with deadline := some (pacer.due now + pacer.frame * (late + 1)) })) ∨
    (pacer.due now + pacer.frame * (skipLimit + 1) ≤ now ∧
      pacer.plan now = (skipLimit, { pacer with deadline := some (now + pacer.frame) })) := by
  have hframe : pacer.frame ≠ 0 := Nat.pos_iff_ne_zero.mp positive
  unfold plan
  by_cases hlate : now ≤ pacer.due now
  · exact .inl ⟨hlate, if_pos (.inl hlate)⟩
  -- how late it is in whole frames, and the rest
  have hdiv := Nat.div_add_mod (now - pacer.due now) pacer.frame
  have hmod := Nat.mod_lt (now - pacer.due now) positive
  have hwhole (late : Nat) : pacer.frame * (late + 1) = pacer.frame * late + pacer.frame :=
    Nat.mul_succ _ _
  have hbranch : ¬ (now ≤ pacer.due now ∨ pacer.frame = 0) := not_or.mpr ⟨hlate, hframe⟩
  by_cases hlimit : skipLimit < (now - pacer.due now) / pacer.frame
  · have hfive : pacer.frame * (skipLimit + 1) ≤
        pacer.frame * ((now - pacer.due now) / pacer.frame) := Nat.mul_le_mul_left _ hlimit
    refine .inr (.inr ⟨by omega, ?_⟩)
    exact (if_neg hbranch).trans (if_pos hlimit)
  · refine .inr (.inl ⟨(now - pacer.due now) / pacer.frame, by omega, by omega, by omega, ?_, ?_⟩)
    · rw [hwhole]
      omega
    · exact (if_neg hbranch).trans (if_neg hlimit)

section
variable {pacer : Pacer}

theorem plan_frame (pacer : Pacer) (now : Nat) : (pacer.plan now).2.frame = pacer.frame := by
  unfold plan
  dsimp only
  split
  · rfl
  · split <;> rfl

/-- What a call leaves behind, by what it plans. -/
theorem planned_eq {now skips next : Nat}
    (h : pacer.plan now = (skips, { pacer with deadline := some next })) :
    pacer.planned now = ⟨now, pacer.due now, skips, next⟩ := by
  unfold planned
  rw [h]
  rfl

/-- A call leaves no doubt when the next frame is due. -/
theorem plan_deadline (positive : 0 < pacer.frame) (now : Nat) :
    (pacer.plan now).2.deadline = some (pacer.planned now).next := by
  obtain ⟨_, h⟩ | ⟨_, _, _, _, _, h⟩ | ⟨_, h⟩ := plan_cases positive now <;> rw [planned_eq h, h]

theorem skips_le (pacer : Pacer) (now : Nat) : (pacer.plan now).1 ≤ skipLimit := by
  unfold plan
  dsimp only
  split
  · exact Nat.zero_le _
  · split
    · exact Nat.le_refl _
    · next few => exact Nat.le_of_not_lt few

/-- A call that is later than the console can skip starts a new schedule, and no other does. -/
theorem startsOver_iff (positive : 0 < pacer.frame) (now : Nat) :
    (pacer.planned now).StartsOver pacer.frame ↔
      pacer.due now + pacer.frame * (skipLimit + 1) ≤ now := by
  unfold Planned.StartsOver
  obtain ⟨hnow, h⟩ | ⟨late, _, hlate, _, hnow, h⟩ | ⟨hnow, h⟩ := plan_cases positive now
  · rw [planned_eq h]
    refine iff_of_false (fun starts => starts.2 ?_) (by rw [Nat.mul_add_one]; omega)
    rw [Nat.zero_add, Nat.mul_one]
  · rw [planned_eq h]
    have hfive : pacer.frame * (late + 1) ≤ pacer.frame * (skipLimit + 1) :=
      Nat.mul_le_mul_left _ (Nat.succ_le_succ hlate)
    exact iff_of_false (fun starts => starts.2 rfl) (by omega)
  · rw [planned_eq h]
    refine iff_of_true ⟨rfl, ?_⟩ hnow
    show now + pacer.frame ≠ pacer.due now + pacer.frame * (skipLimit + 1)
    omega

/-- The next frame is due after the call, and within a frame of a call that is late. -/
theorem next_bounds (positive : 0 < pacer.frame) (now : Nat) :
    now < (pacer.planned now).next ∧
      (pacer.due now < now → (pacer.planned now).next ≤ now + pacer.frame) := by
  obtain ⟨_, h⟩ | ⟨late, _, _, _, _, h⟩ | ⟨_, h⟩ := plan_cases positive now
  · rw [planned_eq h]
    dsimp only
    omega
  · rw [planned_eq h]
    have hframe : pacer.frame * (late + 1) = pacer.frame * late + pacer.frame := Nat.mul_succ _ _
    dsimp only
    omega
  · rw [planned_eq h]
    dsimp only
    omega

/-- A call that keeps the schedule puts the next frame right behind its own and those it skips. -/
theorem next_eq (positive : 0 < pacer.frame) {now : Nat}
    (keeps : ¬(pacer.planned now).StartsOver pacer.frame) :
    (pacer.planned now).next = pacer.due now + pacer.frame * ((pacer.planned now).skips + 1) := by
  obtain ⟨_, h⟩ | ⟨late, _, _, _, _, h⟩ | ⟨hnow, _⟩ := plan_cases positive now
  · rw [planned_eq h, Nat.zero_add, Nat.mul_one]
  · rw [planned_eq h]
  · exact absurd ((startsOver_iff positive now).mpr hnow) keeps

end

/-! ## Any number of calls -/

/-- What each call keeps to, on a schedule of frames of some duration. -/
structure Planned.OnSchedule (frame : Nat) (call : Planned) : Prop where
  /-- The console can skip as many. -/
  skips_le : call.skips ≤ 4
  /-- Five frames late is too late. -/
  startsOver_iff : call.StartsOver frame ↔ call.due + 5 * frame ≤ call.now
  now_lt : call.now < call.next
  next_le : call.due < call.now → call.next ≤ call.now + frame

theorem onSchedule_calls {pacer : Pacer} (positive : 0 < pacer.frame) (times : List Nat) :
    ∀ call ∈ pacer.calls times, call.OnSchedule pacer.frame := by
  induction times generalizing pacer with
  | nil => exact fun call h => nomatch h
  | cons now times ih =>
    have hframe := plan_frame pacer now
    have hlater := @ih (pacer.plan now).2 (hframe ▸ positive)
    rw [hframe] at hlater
    obtain ⟨hafter, hwithin⟩ := next_bounds positive now
    have hover := startsOver_iff positive now
    rw [Nat.mul_comm] at hover
    exact List.forall_mem_cons.mpr ⟨⟨skips_le pacer now, hover, hafter, hwithin⟩, hlater⟩

/-- As long as no call starts a new schedule, the calls account for all slots since the first one,
    and the next frame is due behind them. -/
theorem accounts_calls {pacer : Pacer} (positive : 0 < pacer.frame) (first : Nat)
    (later : List Nat)
    (keeps : ∀ call ∈ pacer.calls (first :: later), ¬call.StartsOver pacer.frame) :
    (pacer.after (first :: later)).deadline = some (pacer.due first +
      pacer.frame * Planned.count (pacer.calls (first :: later))) ∧
    (pacer.calls (first :: later)).flatMap (Planned.slots pacer.frame) =
      (List.range (Planned.count (pacer.calls (first :: later)))).map
        (pacer.due first + pacer.frame * ·) := by
  induction later generalizing pacer first with
  | nil =>
    have hnext := next_eq positive (keeps _ List.mem_cons_self)
    have hdeadline := plan_deadline positive first
    rw [hnext] at hdeadline
    have hcount : Planned.count (pacer.calls [first]) = (pacer.planned first).skips + 1 := rfl
    rw [hcount]
    exact ⟨hdeadline, List.append_nil _⟩
  | cons second later ih =>
    have hnext := next_eq positive (keeps _ List.mem_cons_self)
    have hframe := plan_frame pacer first
    have hdue : (pacer.plan first).2.due second = (pacer.planned first).next := by
      unfold due
      rw [plan_deadline positive first]
      rfl
    obtain ⟨hafter, hslots⟩ := @ih (pacer.plan first).2 (hframe ▸ positive) second
      (by
        rw [hframe]
        exact fun call h => keeps call (List.mem_cons_of_mem _ h))
    rw [hframe, hdue, hnext] at hafter hslots
    -- the slots of this call, and those of the later ones behind them
    have hcount : Planned.count (pacer.calls (first :: second :: later)) =
        (pacer.planned first).skips + 1 +
          Planned.count ((pacer.plan first).2.calls (second :: later)) :=
      rfl
    have hbehind (slot : Nat) :
        pacer.due first + pacer.frame * ((pacer.planned first).skips + 1) + pacer.frame * slot =
          pacer.due first + pacer.frame * ((pacer.planned first).skips + 1 + slot) := by
      rw [Nat.mul_add pacer.frame (_ + 1) slot, Nat.add_assoc]
    rw [hcount]
    refine ⟨hafter.trans (congrArg some (hbehind _)), ?_⟩
    have hrest : (pacer.calls (first :: second :: later)).flatMap (Planned.slots pacer.frame) =
        (pacer.planned first).slots pacer.frame ++
          ((pacer.plan first).2.calls (second :: later)).flatMap (Planned.slots pacer.frame) :=
      rfl
    rw [hrest, hslots, List.range_add, List.map_append, List.map_map]
    exact congrArg (_ ++ ·) (List.map_congr_left fun slot _ => hbehind slot)

/-- Whatever the times of the calls, each of them keeps to the schedule or starts a new one, and
    until one does, every slot since the first call is accounted for exactly once. `fresh` is a
    pacer that was just made, or that forgot its schedule. -/
theorem frame_slots_once {pacer : Pacer} (positive : 0 < pacer.frame)
    (fresh : pacer.deadline = none) (first : Nat) (later : List Nat) :
    (∀ call ∈ pacer.calls (first :: later), call.OnSchedule pacer.frame) ∧
    ((∀ call ∈ pacer.calls (first :: later), ¬call.StartsOver pacer.frame) →
      (pacer.after (first :: later)).deadline =
        some (first + pacer.frame * Planned.count (pacer.calls (first :: later))) ∧
      (pacer.calls (first :: later)).flatMap (Planned.slots pacer.frame) =
        (List.range (Planned.count (pacer.calls (first :: later)))).map
          (first + pacer.frame * ·)) := by
  have hdue : pacer.due first = first := by
    unfold due
    rw [fresh]
    rfl
  refine ⟨onSchedule_calls positive (first :: later), fun keeps => ?_⟩
  have haccounts := accounts_calls positive first later keeps
  rwa [hdue] at haccounts

/-- A call on time, one that is late by two frames and some more, and one that is late by exactly
    one. -/
theorem frame_slots_once_late :
    (∀ call ∈ ({ frame := 10 } : Pacer).calls [7, 17, 50, 67], call.OnSchedule 10) ∧
    (({ frame := 10 } : Pacer).after [7, 17, 50, 67]).deadline = some 77 ∧
    (({ frame := 10 } : Pacer).calls [7, 17, 50, 67]).flatMap (Planned.slots 10) =
      [7, 17, 27, 37, 47, 57, 67] := by
  obtain ⟨hcalls, haccounts⟩ := @frame_slots_once { frame := 10 } (by decide) rfl 7 [17, 50, 67]
  obtain ⟨hdeadline, hslots⟩ := haccounts (by decide)
  exact ⟨hcalls, hdeadline, hslots⟩

/-- Five frames late: four are skipped, and the next frame is due a frame after the call. -/
example : (({ frame := 10 } : Pacer).calls [7, 67]).map Planned.next = [17, 77] := by decide

end Pacer
end Nes
