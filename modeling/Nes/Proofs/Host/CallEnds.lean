/-
  How calls end.

  Every step but a further call and the drop by the owner leaves less to do (`Step.work_lt`), so
  only so many can be taken (`Sound.run_work`); and as long as a call is not back, or the worker
  has left its loop and not ended, there is a step to take (`Linked.returned_of_stuck`,
  `Sound.gone_of_stuck`). So nobody waits for ever. Once it is over, no client's request is
  executed (`Sound.over_run`). `calls_in_order` puts this together with the order.
-/
import Mathlib.Algebra.GroupWithZero.Nat
import Nes.Proofs.Host.CallOrder

namespace Nes
namespace Line

section
variable {σ : Type} {start : Worker σ} {line line' : Line σ} {id : Nat} {progress : Progress}

/-! ## Only so much can happen -/

/-- How many steps a call can still take. -/
def Progress.work : Progress → Nat
  | .sending => 5
  | .queued => 4
  | .taken => 3
  | .executed _ => 2
  | .answered _ | .cut => 1
  | .returned _ => 0

/-- How many steps the worker can still take without a call. -/
def Point.work : Point → Nat
  | .receiving | .executing _ | .replying _ => 3
  | .leaving => 2
  | .closing => 1
  | .gone => 0

/-- How many steps the owner can still take. -/
def Owner.work : Owner → Nat
  | .holding => 3
  | .stopping => 2
  | .joining => 1
  | .joined => 0

/-- How many steps are left for the calls. -/
def callWork (line : Line σ) : Nat := (line.calls.map fun call => call.progress.work).sum

/-- How many steps are left. -/
def work (line : Line σ) : Nat := line.callWork + line.point.work + line.owner.work

theorem callWork_advance (on : line.at? id = some progress) (progress' : Progress) :
    (line.advance id progress').callWork + progress.work = line.callWork + progress'.work := by
  unfold at? at on
  unfold callWork advance
  dsimp only
  generalize line.calls = calls at on ⊢
  induction calls generalizing id with
  | nil => cases on
  | cons call calls ih =>
    cases id with
    | zero =>
      cases on
      simp only [List.modify_zero_cons, List.map_cons, List.sum_cons]
      omega
    | succ id =>
      have hrest := ih on
      simp only [List.modify_succ_cons, List.map_cons, List.sum_cons] at hrest ⊢
      omega

/-- A call gets further, and the worker is not further back. -/
theorem work_lt_of_call (on : line.at? id = some progress) {progress' : Progress}
    (less : progress'.work < progress.work)
    (calls : line'.callWork = (line.advance id progress').callWork)
    (point : line'.point.work ≤ line.point.work) (owner : line'.owner = line.owner) :
    line'.work < line.work := by
  have hsum := callWork_advance on progress'
  unfold work
  rw [calls, owner]
  omega

/-- The worker or the owner gets further, and no call is further back. -/
theorem work_lt_of_point (calls : line'.callWork ≤ line.callWork)
    (less : line'.point.work + line'.owner.work < line.point.work + line.owner.work) :
    line'.work < line.work := by
  unfold work
  omega

theorem length_advance (line : Line σ) (id : Nat) (progress : Progress) :
    (line.advance id progress).calls.length = line.calls.length := List.length_modify _ _ _

variable [Storage σ]

/-- Every step leaves less to do. -/
theorem Step.work_lt (linked : line.Linked) (step : line.Step line') : line'.work < line.work := by
  cases step with
  | send on => exact work_lt_of_call on (by decide) rfl (Nat.le_refl _) rfl
  | refuse on => exact work_lt_of_call on (by decide) rfl (Nat.le_refl _) rfl
  | take on => exact work_lt_of_call on (by simp [Progress.work]) rfl (Nat.le_refl _) rfl
  | giveUp on => exact work_lt_of_call on (by decide) rfl (Nat.le_refl _) rfl
  | stop on => exact work_lt_of_point (Nat.le_refl _) (by simp [on, Owner.work])
  | stopRefused on => exact work_lt_of_point (Nat.le_refl _) (by simp [on, Owner.work])
  | join on => exact work_lt_of_point (Nat.le_refl _) (by simp [on, Owner.work])
  | receive on next =>
    exact work_lt_of_call ((linked.queued _).mp next) (by decide) rfl (by simp [on, Point.work])
      rfl
  | receiveStop on => exact work_lt_of_point (Nat.le_refl _) (by simp [on, Point.work])
  | execute on =>
    exact work_lt_of_call ((linked.taken _).mp on) (by simp [Progress.work]) rfl
      (by simp [on, Point.work]) rfl
  | reply on asked done =>
    refine work_lt_of_call done (by simp [Progress.work]) rfl ?_ rfl
    rw [on]
    dsimp only
    split
    · simp [Point.work]
    · simp [Point.work]
  | finish on => exact work_lt_of_point (Nat.le_refl _) (by simp [on, Point.work])
  | close on =>
    have hpoint : Point.work .gone < line.point.work := by simp [on, Point.work]
    cases hchannel : line.channel with
    | none =>
      simp only [lose, hchannel]
      exact work_lt_of_point (Nat.le_refl _) (by simpa using hpoint)
    | some letter =>
      cases letter with
      | call id =>
        simp only [lose, hchannel]
        exact work_lt_of_call ((linked.queued id).mp hchannel) (by decide) rfl
          (Nat.le_of_lt hpoint) rfl
      | stop =>
        simp only [lose, hchannel]
        exact work_lt_of_point (Nat.le_refl _) (by simpa using hpoint)

theorem Step.length_calls (step : line.Step line') : line'.calls.length = line.calls.length := by
  cases step with
  | send | refuse | take | giveUp | receive | execute | reply => exact length_advance _ _ _
  | stop | stopRefused | join | receiveStop | finish => rfl
  | close =>
    simp only [lose]
    split
    · exact length_advance _ _ _
    · rfl
    · rfl

/-- However everything interleaves, only so much can happen. -/
theorem Sound.run_work {n : Nat} {first : Line σ} (h : Sound start first) (run : Run n first line) :
    n + line.work + 6 * first.calls.length ≤ first.work + 6 * line.calls.length := by
  induction run with
  | refl => omega
  | step run step ih =>
    have hless := step.work_lt (h.run run).linked
    have hlength := step.length_calls
    have hbefore := ih h
    omega
  | @issue n first line run request ih =>
    have hbefore := ih h
    have hwork : (line.issue request).work = line.work + 5 := by
      simp [work, callWork, Line.issue, Progress.work]
      omega
    have hlength : (line.issue request).calls.length = line.calls.length + 1 := by
      simp [Line.issue]
    omega
  | @drop n first line run on ih =>
    have hbefore := ih h
    have hwork : work { line with owner := .stopping } + 1 = line.work := by
      simp [work, callWork, on, Owner.work]
    dsimp only
    omega

/-! ## Nobody waits for ever -/

/-- Nothing more happens unless a client makes another call or the owner drops the worker. -/
def Stuck (line : Line σ) : Prop := ∀ line', ¬ line.Step line'

/-- Outside its receive, the worker goes on. -/
theorem Linked.worker_moves (h : line.Linked) (busy : line.point ≠ .receiving)
    (alive : line.point ≠ .gone) : ∃ line', line.Step line' := by
  cases on : line.point with
  | receiving => exact absurd on busy
  | gone => exact absurd on alive
  | executing id =>
    obtain ⟨request, asked⟩ := asked_of_at ((h.taken id).mp on)
    exact ⟨_, .execute on asked fun _ => .ok #[]⟩
  | replying id =>
    obtain ⟨answer, done⟩ := h.executed id on
    obtain ⟨request, asked⟩ := asked_of_at done
    exact ⟨_, .reply on asked done⟩
  | leaving => exact ⟨_, .finish on fun _ => .ok #[]⟩
  | closing => exact ⟨_, .close on⟩

/-- The worker takes what is in the channel, sooner or later. -/
theorem Linked.channel_moves (h : line.Linked) (full : line.channel ≠ none) :
    ∃ line', line.Step line' := by
  have alive : line.point ≠ .gone := fun gone => full (h.empty gone)
  by_cases on : line.point = .receiving
  · cases next : line.channel with
    | none => exact absurd next full
    | some letter =>
      cases letter with
      | call id => exact ⟨_, .receive on next⟩
      | stop => exact ⟨_, .receiveStop on next⟩
  · exact h.worker_moves on alive

/-- A call that has not come back is still under way. -/
theorem Linked.call_moves (h : line.Linked) (on : line.at? id = some progress)
    (out : ∀ result, progress ≠ .returned result) : ∃ line', line.Step line' := by
  cases progress with
  | sending =>
    by_cases dead : line.point = .gone
    · exact ⟨_, .refuse on dead⟩
    · by_cases room : line.channel = none
      · exact ⟨_, .send on room dead⟩
      · exact h.channel_moves room
  | queued => exact h.channel_moves (by rw [(h.queued id).mpr on]; simp)
  | taken =>
    have hpoint := (h.taken id).mpr on
    exact h.worker_moves (by simp [hpoint]) (by simp [hpoint])
  | executed answer =>
    have hpoint := h.replying id answer on
    exact h.worker_moves (by simp [hpoint]) (by simp [hpoint])
  | answered answer => exact ⟨_, .take on⟩
  | cut => exact ⟨_, .giveUp on⟩
  | returned result => exact absurd rfl (out result)

/-- When nothing more happens, every call has come back. -/
theorem Linked.returned_of_stuck (h : line.Linked) (stuck : line.Stuck)
    (made : id < line.calls.length) : ∃ result, line.at? id = some (.returned result) := by
  obtain ⟨progress, on⟩ : ∃ progress, line.at? id = some progress :=
    ⟨_, by rw [at?, List.getElem?_eq_getElem made, Option.map_some]⟩
  by_contra out
  obtain ⟨line', step⟩ := h.call_moves on fun result heq => out ⟨result, by rw [on, heq]⟩
  exact stuck line' step

/-- When nothing more happens, an owner who has dropped the worker is back, and the worker has
    ended. -/
theorem Linked.joined_of_stuck (h : line.Linked) (stuck : line.Stuck)
    (dropped : line.owner ≠ .holding) : line.owner = .joined ∧ line.point = .gone := by
  suffices hjoined : line.owner = .joined from ⟨hjoined, h.joined hjoined⟩
  by_contra out
  suffices hmoves : ∃ line', line.Step line' by
    obtain ⟨line', step⟩ := hmoves
    exact stuck line' step
  by_cases dead : line.point = .gone
  · cases on : line.owner with
    | holding => exact absurd on dropped
    | stopping => exact ⟨_, .stopRefused on dead⟩
    | joining => exact ⟨_, .join on dead⟩
    | joined => exact absurd on out
  · cases on : line.owner with
    | holding => exact absurd on dropped
    | stopping =>
      by_cases room : line.channel = none
      · exact ⟨_, .stop on room dead⟩
      · exact h.channel_moves room
    | joining =>
      obtain full | left := h.stopped on
      · exact h.channel_moves (by simp [full])
      · refine h.worker_moves ?_ dead
        intro hpoint
        simp [hpoint] at left
    | joined => exact absurd on out

/-- When the worker has ended, its owner is back and so are all calls, nothing more happens. -/
theorem stuck_of_returned (gone : line.point = .gone) (joined : line.owner = .joined)
    (back : ∀ id progress, line.at? id = some progress → ∃ result, progress = .returned result) :
    line.Stuck := by
  intro line' step
  cases step with
  | send on | refuse on | take on | giveUp on =>
    obtain ⟨result, hresult⟩ := back _ _ on
    cases hresult
  | stop on | stopRefused on | join on =>
    rw [joined] at on
    cases on
  | receive on | receiveStop on | execute on | reply on | finish on | close on =>
    rw [gone] at on
    cases on

/-! ## After the end -/

/-- The console was told to stop, or the worker has left its loop. -/
def Over (line : Line σ) : Prop :=
  0 < line.shutdowns ∨ line.point = .leaving ∨ line.point = .closing ∨ line.point = .gone

/-- Once it is over, no client's request is executed, and it stays over. -/
theorem Sound.over_step (h : Sound start line) (ending : line.Over) (step : line.Step line') :
    line'.Over ∧ line'.served = line.served := by
  have hbusy (on : line.point = .receiving ∨ ∃ id, line.point = .executing id) : False := by
    have hquiet := h.quiet on
    unfold Over at ending
    obtain on | ⟨id, on⟩ := on
    · simp [on, hquiet] at ending
    · simp [on, hquiet] at ending
  cases step with
  | send | refuse | take | giveUp | stop | stopRefused | join => exact ⟨ending, rfl⟩
  | receive on next => exact (hbusy (.inl on)).elim
  | receiveStop on next => exact (hbusy (.inl on)).elim
  | execute on asked files => exact (hbusy (.inr ⟨_, on⟩)).elim
  | reply on asked done =>
    have htold : 0 < line.shutdowns := by simpa [Over, on] using ending
    exact ⟨.inl htold, rfl⟩
  | finish on files =>
    refine ⟨.inr (.inr (.inl rfl)), ?_⟩
    simp only [served, List.filterMap_append, Worker.farewell_callers, List.append_nil]
  | close on => exact ⟨.inr (.inr (.inr rfl)), by simp [served]⟩

theorem Sound.over_run {n : Nat} {first : Line σ} (h : Sound start first) (ending : first.Over)
    (run : Run n first line) : line.Over ∧ line.served = first.served := by
  induction run with
  | refl => exact ⟨ending, rfl⟩
  | step run step ih =>
    obtain ⟨hover, hserved⟩ := ih h ending
    obtain ⟨hover', hserved'⟩ := (h.run run).over_step hover step
    exact ⟨hover', hserved'.trans hserved⟩
  | issue | drop =>
    rename_i ih
    exact ih h ending

/-- When nothing more happens and it is over, the worker has ended. -/
theorem Sound.gone_of_stuck (h : Sound start line) (ending : line.Over) (stuck : line.Stuck) :
    line.point = .gone := by
  by_contra alive
  by_cases on : line.point = .receiving
  · have hquiet := h.quiet (.inl on)
    simp [Over, on, hquiet] at ending
  · obtain ⟨line', step⟩ := h.linked.worker_moves on alive
    exact stuck line' step

/-! ## All of it -/

theorem Step.log_prefix (step : line.Step line') : line.log <+: line'.log := by
  cases step with
  | execute | finish => exact List.prefix_append _ _
  | close => simp
  | send | refuse | take | giveUp | stop | stopRefused | join | receive | receiveStop | reply =>
    exact List.prefix_rfl

theorem Run.log_prefix {n : Nat} {first : Line σ} (run : Run n first line) :
    first.log <+: line.log := by
  induction run with
  | refl => exact List.prefix_rfl
  | step _ step ih => exact ih.trans step.log_prefix
  | issue _ _ ih => exact ih
  | drop _ _ ih => exact ih

/-- Any number of clients call a worker, and its owner may drop it. Whatever order things happen
    in, there is one order in which the console executes requests; it only ever grows, every
    answer in it is what the request gives after those before it, and every call is in it at most
    once, with its own request. What a call comes back with is its answer there; a call that is
    not in it comes back without one. Once the console was told to stop or the worker has left its
    loop, no client's request is executed any more, and every other call, made or still to be
    made, comes back without an answer. Only so many steps can be taken, and when no more can be,
    all calls are back, so is an owner who has dropped the worker, and a worker that is to end has
    ended. The console is told to stop once, before the worker is gone, unless it had stopped
    before the worker got it, and never twice. -/
theorem calls_in_order (start : Worker σ) {n : Nat} {line : Line σ}
    (run : Run n { worker := start } line) :
    -- the order
    start.InOrder line.log ∧
    (∃ ended, line.worker = { start.replay line.log with ended }) ∧
    (∀ {m : Nat} {later : Line σ}, Run m line later → line.log <+: later.log) ∧
    (∀ entry ∈ line.log, ∀ id, entry.caller = some id →
      line.asked? id = some entry.turn.request) ∧
    line.served.Nodup ∧
    -- what calls come back with
    (∀ id result, line.at? id = some (.returned result) →
      (∃ entry ∈ line.log, entry.caller = some id ∧ result = entry.answer.mapError .load) ∨
        (id ∉ line.served ∧ result = .error .disconnected)) ∧
    -- the end
    (line.Over → ∀ {m : Nat} {later : Line σ}, Run m line later →
      later.served = line.served ∧
      ∀ id ∉ line.served,
        (∀ result, later.at? id = some (.returned result) → result = .error .disconnected) ∧
        (later.Stuck → id < later.calls.length →
          later.at? id = some (.returned (.error .disconnected)))) ∧
    n + line.work ≤ 6 + 6 * line.calls.length ∧
    (line.Stuck →
      (∀ id < line.calls.length, ∃ result, line.at? id = some (.returned result)) ∧
      (line.owner ≠ .holding → line.owner = .joined ∧ line.point = .gone) ∧
      (line.Over → line.point = .gone)) ∧
    -- the console's own end
    line.shutdowns ≤ 1 ∧
    (start.console.isHalted = false → line.point = .gone → line.shutdowns = 1) := by
  have h := (sound_start start).run run
  refine ⟨h.order, h.replayed, fun run' => run'.log_prefix, h.known, h.once, ?_, ?_, ?_, ?_,
    h.shutdowns_le, ?_⟩
  · intro id result hat
    obtain ⟨answer, ⟨entry, hmem, hcaller, rfl⟩, hresult⟩ | ⟨hserved, _, hresult⟩ :=
      h.told id _ hat
    · exact .inl ⟨entry, hmem, hcaller, hresult⟩
    · exact .inr ⟨hserved, hresult⟩
  · intro ending m later run'
    have hlater := h.run run'
    have hserved := (h.over_run ending run').2
    refine ⟨hserved, fun id hid => ?_⟩
    have hresult (result : Except CallError Response)
        (hat : later.at? id = some (.returned result)) : result = .error .disconnected := by
      obtain ⟨answer, ⟨entry, hmem, hcaller, _⟩, _⟩ | ⟨_, _, hresult⟩ := hlater.told id _ hat
      · rw [← hserved] at hid
        exact absurd (mem_served.mpr ⟨entry, hmem, hcaller⟩) hid
      · exact hresult
    refine ⟨hresult, fun stuck made => ?_⟩
    obtain ⟨result, hat⟩ := hlater.linked.returned_of_stuck stuck made
    rw [hat, hresult result hat]
  · exact (sound_start start).run_work run
  · intro stuck
    exact ⟨fun id made => h.linked.returned_of_stuck stuck made, h.linked.joined_of_stuck stuck,
      fun ending => h.gone_of_stuck ending stuck⟩
  · intro running gone
    have hstage := h.stage
    rw [gone] at hstage
    exact hstage.2 running

end

/-- A client tells the console to stop, and another asks for a frame while the worker is at it. The
    second message is in the channel when the worker drops it, and so that call comes back without
    an answer. The owner drops the worker at last. -/
theorem calls_in_order_of_shutdown :
    ∃ (n m : Nat) (line later : Line MemoryStorage),
      Run n { worker := { storage := {} } } line ∧ line.Over ∧ line.at? 1 = some .queued ∧
      Run m line later ∧ later.Stuck ∧ later.point = .gone ∧ later.shutdowns = 1 ∧
      later.served = line.served ∧
      later.at? 1 = some (.returned (.error .disconnected)) := by
  let start : Worker MemoryStorage := { storage := {} }
  let files : Files := fun _ => .ok #[]
  let answer := (start.execute files .shutdown).1
  let stopped := (start.execute files .shutdown).2
  let calls (first second : Progress) : List Call := [⟨.shutdown, first⟩, ⟨.frame (0, 0), second⟩]
  let line : Line MemoryStorage :=
    { worker := stopped
      point := .replying 0
      channel := some (.call 1)
      calls := calls (.executed answer) .queued
      log := [⟨some 0, ⟨files, .shutdown⟩, answer⟩] }
  let later : Line MemoryStorage :=
    { worker := stopped.finish files
      point := .gone
      calls := calls (.returned (answer.mapError .load)) (.returned (.error .disconnected))
      owner := .joined
      log := line.log ++ stopped.farewell files }
  have alive {point : Point} (h : point.work ≠ 0) : point ≠ .gone := by
    rintro rfl
    exact h rfl
  have run : Run 6 ({ worker := start } : Line MemoryStorage) line :=
    (Run.refl ({ worker := start } : Line MemoryStorage))
      |>.issue .shutdown
      |>.step (@Step.send _ _ _ 0 rfl rfl (alive (by decide)))
      |>.step (.receive rfl rfl)
      |>.issue (.frame (0, 0))
      |>.step (@Step.send _ _ _ 1 rfl rfl (alive (by decide)))
      |>.step (.execute rfl rfl files)
  have rest : Run 8 line later :=
    (Run.refl line)
      |>.step (@Step.reply _ _ _ 0 _ _ rfl rfl rfl)
      |>.step (.finish rfl files)
      |>.drop rfl
      |>.step (.close rfl)
      |>.step (@Step.take _ _ _ 0 _ rfl)
      |>.step (@Step.giveUp _ _ _ 1 rfl)
      |>.step (.stopRefused rfl rfl)
      |>.step (.join rfl rfl)
  have ending : line.Over := .inl (by decide)
  have stuck : later.Stuck := by
    refine stuck_of_returned rfl rfl fun id progress on => ?_
    match id with
    | 0 => exact ⟨_, (Option.some.inj on).symm⟩
    | 1 => exact ⟨_, (Option.some.inj on).symm⟩
    | _ + 2 => cases on
  obtain ⟨_, _, _, _, _, _, hend, _⟩ := calls_in_order start run
  obtain ⟨hserved, hcut⟩ := hend ending rest
  obtain ⟨_, _, _, _, _, _, _, _, _, _, honce⟩ := calls_in_order start (run.trans rest)
  exact ⟨6, 8, line, later, run, ending, rfl, rest, stuck, rfl, honce rfl rfl, hserved,
    (hcut 1 (by decide)).2 stuck (by decide)⟩

end Line
end Nes
