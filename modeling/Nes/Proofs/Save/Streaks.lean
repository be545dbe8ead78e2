/-
  When save RAM is handed out.

  The schedule keeps two counters, the count of writes that it saw last and the count of the image
  that was stored last. Here the answer of a frame is read off the frames before it instead. What
  is stored has the count of the last frame that was answered with a save (`lastSaved`), and the
  counts since then, or since a frame that ended with that count, are the streak of frames out of
  date (`streak`). A save is due when the streak ends with 61 equal counts or has 600 of them
  (`due_iff_rested_or_overdue`).

  The run of equal counts at the end of a streak is measured together with the count that was
  stored before it (`Follows.rested`). That count is not in the streak, so it never makes a run
  longer, and it makes the two cases of a streak that has just begun and of one that goes on the
  same.
-/
import Mathlib.Data.List.DropRight
import Nes.Save.Schedule

namespace Nes

namespace SaveSchedule

/-! ## The end of a frame -/

/-- Frames without a write, if a frame ends at write count `count`. -/
def idleWith (schedule : SaveSchedule) (count : UInt32) : Nat :=
  if count = schedule.lastSeen then schedule.idle + 1 else 0

/-- One of the two limits is reached in a frame that ends at write count `count`. -/
def LimitReached (schedule : SaveSchedule) (count : UInt32) : Prop :=
  idleLimit ≤ schedule.idleWith count ∨ staleLimit ≤ schedule.stale + 1

/-- All that the end of a frame can do: nothing has changed, a save is due, or the frame counts as
    one more that was out of date. -/
theorem endFrame_cases (schedule : SaveSchedule) (count : UInt32) :
    (count = schedule.stored ∧ schedule.endFrame count = (false, .fresh count)) ∨
      (count ≠ schedule.stored ∧ schedule.LimitReached count ∧
        schedule.endFrame count = (true, .fresh count)) ∨
      (count ≠ schedule.stored ∧ ¬schedule.LimitReached count ∧
        schedule.endFrame count = (false, { schedule with
          lastSeen := count, idle := schedule.idleWith count, stale := schedule.stale + 1 })) := by
  unfold endFrame
  by_cases hcount : count = schedule.stored
  · rw [if_pos hcount]
    exact .inl ⟨hcount, rfl⟩
  · rw [if_neg hcount]
    by_cases hlimit : schedule.LimitReached count
    · exact .inr (.inl ⟨hcount, hlimit, if_pos hlimit⟩)
    · exact .inr (.inr ⟨hcount, hlimit, if_neg hlimit⟩)

variable {schedule : SaveSchedule} {count : UInt32}

theorem endFrame_due (due : (schedule.endFrame count).1 = true) :
    (schedule.endFrame count).2 = .fresh count := by
  rcases schedule.endFrame_cases count with ⟨_, h⟩ | ⟨_, _, h⟩ | ⟨_, _, h⟩
  · rw [h]
  · rw [h]
  · rw [h] at due
    cases due

/-- Without a save the stored copy stays the same. -/
theorem endFrame_stored (early : (schedule.endFrame count).1 = false) :
    (schedule.endFrame count).2.stored = schedule.stored := by
  rcases schedule.endFrame_cases count with ⟨hcount, h⟩ | ⟨_, _, h⟩ | ⟨_, _, h⟩
  · rw [h]
    exact hcount
  · rw [h] at early
    cases early
  · rw [h]

/-- A frame that ends out of date without a save was not one too many, and is counted. -/
theorem endFrame_stale (stale : schedule.isStale count = true)
    (early : (schedule.endFrame count).1 = false) :
    (schedule.endFrame count).2.stale = schedule.stale + 1 ∧ schedule.stale + 1 < staleLimit := by
  rcases schedule.endFrame_cases count with ⟨hcount, _⟩ | ⟨_, _, h⟩ | ⟨_, hlimit, h⟩
  · simp [isStale, hcount] at stale
  · rw [h] at early
    cases early
  · rw [h]
    exact ⟨rfl, Nat.lt_of_not_le (not_or.mp hlimit).2⟩

/-! ## Histories -/

/-- A frame that is over: the count of writes at its end, and whether a save was due. -/
structure FrameEnd where
  count : UInt32
  due : Bool
deriving DecidableEq

/-- The frames that end with the given counts, one after the other. -/
def frames (schedule : SaveSchedule) : List UInt32 → List FrameEnd
  | [] => []
  | count :: counts =>
    ⟨count, (schedule.endFrame count).1⟩ :: (schedule.endFrame count).2.frames counts

/-- The schedule after frames that end with the given counts. -/
def after (schedule : SaveSchedule) (counts : List UInt32) : SaveSchedule :=
  counts.foldl (fun schedule count => (schedule.endFrame count).2) schedule

/-- The count of the last frame with a save, and `first` if there was none. -/
def lastSaved (first : UInt32) (past : List FrameEnd) : UInt32 :=
  ((past.filter (·.due)).getLast?.map (·.count)).getD first

/-- The counts of the frames since the last save, or since the last frame that ended with the
    count of that save. -/
def streak (first : UInt32) (past : List FrameEnd) : List UInt32 :=
  (past.rtakeWhile fun frame => !frame.due && frame.count != lastSaved first past).map (·.count)

theorem after_concat (schedule : SaveSchedule) (counts : List UInt32) (count : UInt32) :
    schedule.after (counts ++ [count]) = ((schedule.after counts).endFrame count).2 := by
  unfold after
  rw [List.foldl_append]
  rfl

theorem frames_concat (schedule : SaveSchedule) (counts : List UInt32) (count : UInt32) :
    schedule.frames (counts ++ [count]) =
      schedule.frames counts ++ [⟨count, ((schedule.after counts).endFrame count).1⟩] := by
  induction counts generalizing schedule with
  | nil => rfl
  | cons next counts ih =>
    rw [List.cons_append, frames, frames, ih]
    rfl

/-! ## One more frame -/

variable {first : UInt32} {past : List FrameEnd}

theorem lastSaved_saved (first : UInt32) (past : List FrameEnd) (count : UInt32) :
    lastSaved first (past ++ [⟨count, true⟩]) = count := by
  simp [lastSaved]

theorem lastSaved_unsaved (first : UInt32) (past : List FrameEnd) (count : UInt32) :
    lastSaved first (past ++ [⟨count, false⟩]) = lastSaved first past := by
  simp [lastSaved]

/-- A save ends the streak. -/
theorem streak_saved (first : UInt32) (past : List FrameEnd) (count : UInt32) :
    streak first (past ++ [⟨count, true⟩]) = [] := by
  simp [streak]

/-- A frame that ends with the count of the last save ends the streak. -/
theorem streak_current (first : UInt32) (past : List FrameEnd) :
    streak first (past ++ [⟨lastSaved first past, false⟩]) = [] := by
  simp [streak, lastSaved_unsaved]

/-- Any other frame makes the streak longer. -/
theorem streak_longer (past : List FrameEnd) (hcount : count ≠ lastSaved first past) :
    streak first (past ++ [⟨count, false⟩]) = streak first past ++ [count] := by
  simp [streak, lastSaved_unsaved, hcount]

/-! ## Runs of equal counts -/

section
variable {A : Type} {a b : A} {l : List A}

theorem replicate_suffix_concat (l : List A) (a : A) (n : Nat) :
    List.replicate (n + 1) a <:+ l ++ [a] ↔ List.replicate n a <:+ l := by
  rw [List.replicate_succ', List.suffix_append_self_iff]

theorem replicate_suffix_singleton (a : A) (n : Nat) : List.replicate n a <:+ [a] ↔ n ≤ 1 := by
  cases n with
  | zero => simp
  | succ n =>
    have hnone := replicate_suffix_concat [] a n
    rw [List.nil_append] at hnone
    simp [hnone]

/-- A list that ends with something else ends with no run of `a`. -/
theorem replicate_suffix_of_last (last : [b] <:+ l) (differs : a ≠ b) (n : Nat) :
    List.replicate n a <:+ l ↔ n = 0 := by
  constructor
  · intro h
    cases n with
    | zero => rfl
    | succ n =>
      obtain ⟨front, rfl⟩ := last
      rw [List.replicate_succ', List.suffix_concat_iff] at h
      simp [differs] at h
  · rintro rfl
    exact List.nil_suffix

/-- Something else in front of a list makes no run at its end longer. -/
theorem replicate_suffix_cons (differs : a ≠ b) (n : Nat) :
    List.replicate n a <:+ b :: l ↔ List.replicate n a <:+ l := by
  rw [List.suffix_cons_iff, or_iff_right]
  intro h
  have hmem : b ∈ List.replicate n a := h ▸ List.mem_cons_self
  exact differs (List.eq_of_mem_replicate hmem).symm

end

/-! ## The two counters -/

/-- The schedule is what the frames so far make of it. -/
structure Follows (first : UInt32) (past : List FrameEnd) (schedule : SaveSchedule) : Prop where
  stored : schedule.stored = lastSaved first past
  stale : schedule.stale = (streak first past).length
  early : schedule.stale < staleLimit
  rested : ∀ n, List.replicate n schedule.lastSeen <:+ lastSaved first past :: streak first past ↔
    n ≤ schedule.idle + 1

theorem follows_fresh (saved : lastSaved first past = count) (ended : streak first past = []) :
    Follows first past (.fresh count) where
  stored := saved.symm
  stale := by
    rw [ended]
    rfl
  early := by
    show 0 < staleLimit
    decide
  rested n := by
    rw [ended, saved]
    exact replicate_suffix_singleton count n

/-- The run of equal counts that a frame ends with, when it is added to the streak. -/
theorem Follows.rested_concat (h : Follows first past schedule) (count : UInt32) (n : Nat) :
    List.replicate n count <:+ lastSaved first past :: (streak first past ++ [count]) ↔
      n ≤ schedule.idleWith count + 1 := by
  rw [← List.cons_append]
  cases n with
  | zero => simp
  | succ n =>
    rw [replicate_suffix_concat]
    unfold idleWith
    by_cases same : count = schedule.lastSeen
    · rw [if_pos same, same, h.rested]
      omega
    · have hlast : [schedule.lastSeen] <:+ lastSaved first past :: streak first past :=
        (h.rested 1).mpr (by omega)
      rw [if_neg same, replicate_suffix_of_last hlast same]
      omega

/-- A limit is reached exactly when the streak, with this frame, ends with 61 equal counts or has
    600 frames. -/
theorem Follows.limitReached_iff (h : Follows first past schedule)
    (hcount : count ≠ lastSaved first past) :
    schedule.LimitReached count ↔
      List.replicate 61 count <:+ streak first past ++ [count] ∨
        (streak first past ++ [count]).length = 600 := by
  have hrun : idleLimit ≤ schedule.idleWith count ↔
      List.replicate 61 count <:+ streak first past ++ [count] := by
    rw [← replicate_suffix_cons hcount, h.rested_concat]
    unfold idleLimit
    omega
  have hlong : staleLimit ≤ schedule.stale + 1 ↔ (streak first past ++ [count]).length = 600 := by
    have hstale := h.stale
    have hearly := h.early
    unfold staleLimit at hearly ⊢
    rw [List.length_append, List.length_singleton, ← hstale]
    omega
  unfold LimitReached
  rw [hrun, hlong]

/-- One frame keeps the schedule in step with the history. -/
theorem Follows.next (h : Follows first past schedule) (count : UInt32) :
    Follows first (past ++ [⟨count, (schedule.endFrame count).1⟩])
      (schedule.endFrame count).2 := by
  rcases schedule.endFrame_cases count with ⟨hcount, hend⟩ | ⟨_, _, hend⟩ | ⟨hcount, hlimit, hend⟩
  · have hsaved : count = lastSaved first past := hcount.trans h.stored
    rw [hend, hsaved]
    exact follows_fresh (lastSaved_unsaved first past _) (streak_current first past)
  · rw [hend]
    exact follows_fresh (lastSaved_saved first past count) (streak_saved first past count)
  · rw [h.stored] at hcount
    rw [hend]
    constructor
    · rw [lastSaved_unsaved]
      exact h.stored
    · rw [streak_longer past hcount, List.length_append, List.length_singleton, ← h.stale]
    · exact Nat.lt_of_not_le (not_or.mp hlimit).2
    · intro n
      rw [lastSaved_unsaved, streak_longer past hcount]
      exact h.rested_concat count n

/-- The schedule follows the history of any run. -/
theorem follows_after (first : UInt32) (counts : List UInt32) :
    Follows first ((fresh first).frames counts) ((fresh first).after counts) := by
  induction counts using List.reverseRecOn with
  | nil => exact follows_fresh rfl rfl
  | append_singleton counts count ih =>
    rw [frames_concat, after_concat]
    exact ih.next count

/-- After any frames, a save is due at the end of the next one exactly if the streak of frames out
    of date, with that frame, ends with 61 equal counts or has just got 600 frames. What is stored
    is what was there at the last save, and it is out of date exactly if the count differs. -/
theorem due_iff_rested_or_overdue (first : UInt32) (counts : List UInt32) (count : UInt32) :
    let past := (fresh first).frames counts
    let schedule := (fresh first).after counts
    ((schedule.endFrame count).1 = true ↔
      count ≠ lastSaved first past ∧
        (List.replicate 61 count <:+ streak first past ++ [count] ∨
          (streak first past ++ [count]).length = 600)) ∧
    schedule.stored = lastSaved first past ∧
    (schedule.isStale count = true ↔ count ≠ lastSaved first past) := by
  intro past schedule
  have h : Follows first past schedule := follows_after first counts
  refine ⟨?_, h.stored, ?_⟩
  · rcases schedule.endFrame_cases count with ⟨hcount, hend⟩ | ⟨hcount, hlimit, hend⟩ |
      ⟨hcount, hlimit, hend⟩
    · have hcurrent : count = lastSaved first past := hcount.trans h.stored
      rw [hend]
      exact iff_of_false nofun fun due => due.1 hcurrent
    · rw [h.stored] at hcount
      rw [hend, ← h.limitReached_iff hcount]
      exact iff_of_true rfl ⟨hcount, hlimit⟩
    · rw [h.stored] at hcount
      rw [hend, ← h.limitReached_iff hcount]
      exact iff_of_false nofun fun due => hlimit due.2
  · unfold isStale
    rw [h.stored, bne_iff_ne]

/-- The frame with the write does not count: the save is due 60 frames after it. -/
example : ((fresh 0).frames (List.replicate 61 5)).map (·.due) =
    List.replicate 60 false ++ [true] := by
  decide

end SaveSchedule
end Nes
