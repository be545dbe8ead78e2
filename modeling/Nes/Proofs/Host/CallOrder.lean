/-
  The order in which a worker executes the requests of its clients.

  `Linked` says where the message of a call is: a call that waits in the channel is the one that
  the channel holds, and the worker is busy with the call that says so. `Told` says what the log
  has of a call: nothing before its request is executed, its answer from then on, and that a call
  comes back without an answer only if it is not in the log and the worker is gone. Both are part
  of `Sound`, with the order itself: each call is in the log at most once, the worker is what the
  log makes of the one that started, and the console is told to stop only by the last request that
  the worker takes, or by the worker itself. Every step keeps it (`Sound.step`), so it holds of
  every run (`Sound.run`).
-/
import Nes.Proofs.Host.Line

namespace Nes
namespace Line

section
variable {σ : Type} {start : Worker σ} {line line' : Line σ} {id : Nat} {progress : Progress}

/-! ## Where the message of a call is -/

/-- The message of a call is where the call's progress says, and so is the owner's. -/
structure Linked (line : Line σ) : Prop where
  queued : ∀ id, line.channel = some (.call id) ↔ line.at? id = some .queued
  taken : ∀ id, line.point = .executing id ↔ line.at? id = some .taken
  executed : ∀ id, line.point = .replying id → ∃ answer, line.at? id = some (.executed answer)
  replying : ∀ id answer, line.at? id = some (.executed answer) → line.point = .replying id
  empty : line.point = .gone → line.channel = none
  stopped : line.owner = .joining → line.channel = some .stop ∨ line.point = .leaving ∨
    line.point = .closing ∨ line.point = .gone
  joined : line.owner = .joined → line.point = .gone

theorem Linked.step [Storage σ] (h : Linked line) (step : line.Step line') : Linked line' := by
  obtain ⟨queued, taken, executed, replying, empty, stopped, joined⟩ := h
  cases step with
  | send on room alive => constructor <;> grind
  | refuse on dead => constructor <;> grind
  | take on => constructor <;> grind
  | giveUp on => constructor <;> grind
  | stop on room alive => constructor <;> grind
  | stopRefused on dead => constructor <;> grind
  | join on dead => constructor <;> grind
  | receive on next => constructor <;> grind
  | receiveStop on next => constructor <;> grind
  | @execute id request on asked files =>
    have htaken := (taken id).mp on
    constructor <;> simp <;> grind
  | reply on asked done => constructor <;> grind
  | finish on files => constructor <;> grind
  | close on =>
    unfold lose
    split
    · constructor <;> grind
    · constructor <;> grind
    · constructor <;> grind

theorem Linked.issue (h : Linked line) (request : Request) : Linked (line.issue request) := by
  have hnew := line.at_length
  have hat := line.at_issue request
  have hchannel : (line.issue request).channel = line.channel := rfl
  have hpoint : (line.issue request).point = line.point := rfl
  refine ⟨?_, ?_, ?_, ?_, h.empty, h.stopped, h.joined⟩
  · have hqueued := h.queued
    grind
  · have htaken := h.taken
    grind
  · have hexecuted := h.executed
    grind
  · have hreplying := h.replying
    grind

/-- The owner drops the worker. -/
theorem Linked.drop (h : Linked line) : Linked { line with owner := .stopping } :=
  ⟨h.queued, h.taken, h.executed, h.replying, h.empty, (fun h => nomatch h), (fun h => nomatch h)⟩

/-! ## What the log says of a call -/

/-- The calls whose requests were executed, in this order. -/
def served (line : Line σ) : List Nat := line.log.filterMap Execution.caller

/-- The log has an answer for a call. -/
def Answered (line : Line σ) (id : Nat) (answer : Except LoadError Response) : Prop :=
  ∃ entry ∈ line.log, entry.caller = some id ∧ entry.answer = answer

/-- A call has got as far as the log says, and comes back with the answer there; without one only
    if the worker is gone and its request was never executed. -/
def Told (line : Line σ) (id : Nat) : Progress → Prop
  | .sending | .queued | .taken => id ∉ line.served
  | .executed answer | .answered answer => line.Answered id answer
  | .cut => id ∉ line.served ∧ line.point = .gone
  | .returned result =>
    (∃ answer, line.Answered id answer ∧ result = answer.mapError .load) ∨
      (id ∉ line.served ∧ line.point = .gone ∧ result = .error .disconnected)

/-- How often the console was told to stop. -/
def shutdowns (line : Line σ) : Nat :=
  line.log.countP fun entry => entry.turn.request = .shutdown

/-- Whether the console was told to stop when the worker is at a point. -/
def Stage (start : Worker σ) (line : Line σ) : Point → Prop
  | .receiving | .executing _ => line.shutdowns = 0
  | .replying id => line.shutdowns = if line.asked? id = some .shutdown then 1 else 0
  | .leaving => line.shutdowns ≤ 1
  | .closing | .gone =>
    line.shutdowns ≤ 1 ∧ (start.console.isHalted = false → line.shutdowns = 1)

/-- The worker has not shut the console down of its own accord. -/
def Open (line : Line σ) : Prop := line.point ≠ .closing ∧ line.point ≠ .gone

/-- What holds at any time. -/
structure Sound [Storage σ] (start : Worker σ) (line : Line σ) : Prop where
  linked : line.Linked
  known : ∀ entry ∈ line.log, ∀ id, entry.caller = some id →
    line.asked? id = some entry.turn.request
  once : line.served.Nodup
  told : ∀ id progress, line.at? id = some progress → line.Told id progress
  order : Worker.InOrder start line.log
  running : line.Open → line.worker = start.replay line.log
  finished : ¬ line.Open → line.worker = { start.replay line.log with ended := true }
  stage : line.Stage start line.point

theorem mem_served : id ∈ line.served ↔ ∃ entry ∈ line.log, entry.caller = some id := by
  simp [served]

/-- What was told stays true while the log grows by other calls. -/
theorem Told.mono (h : line.Told id progress) (sub : line.log ⊆ line'.log)
    (served : id ∈ line'.served → id ∈ line.served)
    (gone : line.point = .gone → line'.point = .gone) : line'.Told id progress := by
  have hanswered {answer : Except LoadError Response} (h : line.Answered id answer) :
      line'.Answered id answer := by
    obtain ⟨entry, hmem, hcaller, hanswer⟩ := h
    exact ⟨entry, sub hmem, hcaller, hanswer⟩
  cases progress with
  | sending | queued | taken => exact fun hmem => h (served hmem)
  | executed answer | answered answer => exact hanswered h
  | cut => exact ⟨fun hmem => h.1 (served hmem), gone h.2⟩
  | returned result =>
    obtain ⟨answer, hanswer, hresult⟩ | ⟨hserved, hgone, hresult⟩ := h
    · exact .inl ⟨answer, hanswered hanswer, hresult⟩
    · exact .inr ⟨fun hmem => hserved (served hmem), gone hgone, hresult⟩

/-- One call gets further; what the log says of the others stays. -/
theorem told_advance (told : ∀ j progress, line.at? j = some progress → line.Told j progress)
    (hat : ∀ j, line'.at? j =
      if j = id then (line.at? id).map fun _ => progress else line.at? j)
    (sub : line.log ⊆ line'.log) (served : ∀ j ≠ id, j ∈ line'.served → j ∈ line.served)
    (gone : line.point = .gone → line'.point = .gone) (new : line'.Told id progress) :
    ∀ j progress, line'.at? j = some progress → line'.Told j progress := by
  intro j progress' hj
  rw [hat] at hj
  split at hj
  · next heq =>
    obtain ⟨_, _, rfl⟩ := Option.map_eq_some_iff.mp hj
    rwa [heq]
  · next hne => exact (told j progress' hj).mono sub (served j hne) gone

theorem Stage.congr {point : Point} (h : line.Stage start point) (log : line'.log = line.log)
    (asked : ∀ id, point = .replying id → line'.asked? id = line.asked? id) :
    line'.Stage start point := by
  have hcount : line'.shutdowns = line.shutdowns := by rw [shutdowns, log, shutdowns]
  cases point with
  | replying id =>
    simp only [Stage] at *
    rwa [hcount, asked id rfl]
  | receiving | executing | leaving | closing | gone =>
    simp only [Stage] at *
    rwa [hcount]

variable [Storage σ]

/-- Nothing is executed. -/
theorem Sound.frame (h : Sound start line) (linked : line'.Linked) (log : line'.log = line.log)
    (asked : ∀ j, line'.asked? j = line.asked? j)
    (told : ∀ j progress, line'.at? j = some progress → line'.Told j progress)
    (worker : line'.worker = line.worker) (hopen : line'.Open ↔ line.Open)
    (stage : line'.Stage start line'.point) : Sound start line' where
  linked := linked
  known entry hmem id hcaller := by
    rw [log] at hmem
    rw [asked]
    exact h.known entry hmem id hcaller
  once := by
    unfold served
    rw [log]
    exact h.once
  told := told
  order := by
    rw [log]
    exact h.order
  running running := by
    rw [worker, log]
    exact h.running (hopen.mp running)
  finished finished := by
    rw [worker, log]
    exact h.finished fun running => finished (hopen.mpr running)
  stage := stage

/-- A client's call gets further, and the worker does nothing. -/
theorem Sound.client (h : Sound start line) (id : Nat) (progress : Progress)
    (channel : Option Letter)
    (linked : Linked { line.advance id progress with channel })
    (new : line.Told id progress) : Sound start { line.advance id progress with channel } := by
  refine h.frame linked rfl (by simp) ?_ rfl Iff.rfl
    (h.stage.congr rfl (by simp))
  have new' := new.mono (List.Subset.refl _) (fun hmem => hmem) (fun hgone => hgone)
  exact told_advance h.told (by simp) (List.Subset.refl _) (fun j _ hmem => hmem)
    (fun hgone => hgone) new'

/-- The owner does something, and the worker does nothing. -/
theorem Sound.owner (h : Sound start line) (owner : Owner) (channel : Option Letter)
    (linked : Linked { line with owner, channel }) : Sound start { line with owner, channel } :=
  h.frame linked rfl (fun _ => rfl) h.told rfl Iff.rfl
    (h.stage.congr rfl fun _ _ => rfl)

/-- The worker gets further with a call, and executes nothing. -/
theorem Sound.worker (h : Sound start line) (alive : line.point ≠ .gone) (id : Nat)
    (progress : Progress) (channel : Option Letter) (point : Point)
    (linked : Linked { line.advance id progress with channel, point })
    (new : Told { line.advance id progress with channel, point } id progress)
    (hopen : Open { line with point } ↔ line.Open) (stage : line.Stage start point) :
    Sound start { line.advance id progress with channel, point } := by
  refine h.frame linked rfl (by simp) ?_ rfl hopen
    (stage.congr rfl (by simp))
  exact told_advance h.told (by simp) (List.Subset.refl _) (fun j _ hmem => hmem)
    (fun hgone => absurd hgone alive) new

/-- The worker gets further without a call. -/
theorem Sound.still (h : Sound start line) (alive : line.point ≠ .gone)
    (channel : Option Letter) (point : Point) (linked : Linked { line with channel, point })
    (hopen : Open { line with point } ↔ line.Open) (stage : line.Stage start point) :
    Sound start { line with channel, point } := by
  refine h.frame linked rfl (fun _ => rfl) ?_ rfl hopen
    (stage.congr rfl fun _ _ => rfl)
  intro id progress hat
  exact (h.told id progress hat).mono (List.Subset.refl _) (fun hmem => hmem)
    (fun hgone => absurd hgone alive)

theorem Sound.quiet (h : Sound start line)
    (on : line.point = .receiving ∨ ∃ id, line.point = .executing id) : line.shutdowns = 0 := by
  have hstage := h.stage
  obtain on | ⟨id, on⟩ := on
  · rwa [on] at hstage
  · rwa [on] at hstage

theorem Sound.shutdowns_le (h : Sound start line) : line.shutdowns ≤ 1 := by
  have hstage := h.stage
  cases on : line.point with
  | receiving | executing =>
    rw [on] at hstage
    exact Nat.le_succ_of_le (Nat.le_of_eq hstage)
  | replying id =>
    rw [on, Stage] at hstage
    rw [hstage]
    split
    · exact Nat.le_refl 1
    · exact Nat.zero_le 1
  | leaving =>
    rw [on] at hstage
    exact hstage
  | closing | gone =>
    rw [on] at hstage
    exact hstage.1

/-- The worker is what the log makes of the one that started. -/
theorem Sound.replayed (h : Sound start line) :
    ∃ ended, line.worker = { start.replay line.log with ended } := by
  by_cases hopen : line.Open
  · exact ⟨_, h.running hopen⟩
  · exact ⟨_, h.finished hopen⟩

/-- A request is executed: the log grows by it. -/
theorem Sound.execute (h : Sound start line) {request : Request} (on : line.point = .executing id)
    (asked : line.asked? id = some request) (files : Files) {line' : Line σ}
    (linked : line'.Linked)
    (worker : line'.worker = (line.worker.execute files request).2)
    (point : line'.point = .replying id)
    (log : line'.log =
      line.log ++ [⟨some id, ⟨files, request⟩, (line.worker.execute files request).1⟩])
    (hasked : ∀ j, line'.asked? j = line.asked? j)
    (hat : ∀ j, line'.at? j = if j = id then
      (line.at? id).map fun _ => .executed (line.worker.execute files request).1 else line.at? j) :
    Sound start line' := by
  have hopen : line.Open := by simp [Open, on]
  have hnone := h.quiet (.inr ⟨id, on⟩)
  have hworker := h.running hopen
  have hserved : line'.served = line.served ++ [id] := by simp [served, log]
  have hnew : id ∉ line.served := h.told id .taken ((h.linked.taken id).mp on)
  have hentry : line'.Answered id (line.worker.execute files request).1 :=
    ⟨_, by rw [log]; exact List.mem_append_right _ (List.mem_singleton_self _), rfl, rfl⟩
  have hopen' : line'.Open := by simp [Open, point]
  refine ⟨linked, ?_, ?_, ?_, ?_, fun _ => ?_, fun closed => absurd hopen' closed, ?_⟩
  · intro entry hmem j hcaller
    rw [log] at hmem
    rw [hasked]
    obtain hmem | hmem := List.mem_append.mp hmem
    · exact h.known entry hmem j hcaller
    · cases List.mem_singleton.mp hmem
      cases hcaller
      exact asked
  · rw [hserved]
    exact List.nodup_append.mpr ⟨h.once, List.pairwise_singleton _ id, by
      intro j hj k hk heq
      cases List.mem_singleton.mp hk
      cases heq
      exact hnew hj⟩
  · refine told_advance h.told hat ?_ ?_ ?_ hentry
    · rw [log]
      exact List.subset_append_left _ _
    · intro j hne hmem
      rw [hserved] at hmem
      simpa [hne] using hmem
    · intro hgone
      rw [on] at hgone
      cases hgone
  · rw [log]
    exact h.order.snoc (by rw [hworker])
  · rw [worker, log, Worker.replay_append, hworker]
    rfl
  · have hcount : line'.shutdowns = line.shutdowns + if request = .shutdown then 1 else 0 := by
      simp [shutdowns, log]
    rw [point]
    unfold Stage
    simp [hcount, hnone, hasked, asked]

/-- While the worker is in its loop, the console has stopped if it had from the start, or was told
    to. -/
theorem Sound.running_isHalted (h : Sound start line) (hopen : line.Open) :
    line.worker.console.isHalted = (start.console.isHalted || 0 < line.shutdowns) := by
  rw [h.running hopen, Worker.replay_isHalted]
  congr 1
  rw [Bool.eq_iff_iff]
  simp [shutdowns, List.countP_pos_iff]

/-- The worker shuts the console down, unless that is done. -/
theorem Sound.finish (h : Sound start line) (on : line.point = .leaving) (files : Files)
    {line' : Line σ} (linked : line'.Linked) (worker : line'.worker = line.worker.finish files)
    (point : line'.point = .closing)
    (log : line'.log = line.log ++ line.worker.farewell files)
    (asked : ∀ j, line'.asked? j = line.asked? j) (hat : ∀ j, line'.at? j = line.at? j) :
    Sound start line' := by
  have hworker := h.running (by simp [Open, on])
  have hown := line.worker.farewell_callers files
  have hserved : line'.served = line.served := by
    rw [served, log, List.filterMap_append, hown, List.append_nil, served]
  have hcount : line'.shutdowns =
      line.shutdowns + if line.worker.console.isHalted then 0 else 1 := by
    unfold shutdowns
    rw [log, List.countP_append]
    unfold Worker.farewell
    split
    · rfl
    · rfl
  refine ⟨linked, ?_, ?_, ?_, ?_, fun hopen => absurd point hopen.1, fun _ => ?_, ?_⟩
  · intro entry hmem id hcaller
    rw [log] at hmem
    obtain hmem | hmem := List.mem_append.mp hmem
    · rw [asked]
      exact h.known entry hmem id hcaller
    · rw [List.filterMap_eq_nil_iff.mp hown entry hmem] at hcaller
      cases hcaller
  · rw [hserved]
    exact h.once
  · intro id progress hid
    rw [hat] at hid
    refine (h.told id progress hid).mono ?_ (fun hmem => by rwa [hserved] at hmem) ?_
    · rw [log]
      exact List.subset_append_left _ _
    · intro hgone
      rw [on] at hgone
      cases hgone
  · rw [log, hworker]
    exact h.order.farewell files
  · rw [worker, log, Worker.finish_eq, Worker.replay_append, ← hworker]
  · have hatMost := h.stage
    rw [on] at hatMost
    have hhalted := h.running_isHalted (by simp [Open, on])
    rw [point]
    cases hnow : line.worker.console.isHalted with
    | true =>
      rw [hnow, if_pos rfl] at hcount
      rw [hnow] at hhalted
      refine ⟨Nat.le_trans (Nat.le_of_eq hcount) hatMost, fun hstart => ?_⟩
      rw [hstart] at hhalted
      have hpos : 0 < line.shutdowns := by simpa using hhalted
      have hone : line.shutdowns ≤ 1 := hatMost
      omega
    | false =>
      rw [hnow, if_neg Bool.false_ne_true] at hcount
      rw [hnow] at hhalted
      obtain ⟨_, hzero⟩ : start.console.isHalted = false ∧ line.shutdowns = 0 := by
        simpa using hhalted
      rw [hzero] at hcount
      exact ⟨Nat.le_of_eq hcount, fun _ => hcount⟩

theorem Sound.step (h : Sound start line) (step : line.Step line') : Sound start line' := by
  have linked := h.linked.step step
  cases step with
  | @send id on room alive =>
    exact h.client id .queued (some (.call id)) linked (h.told id .sending on)
  | @refuse id on dead =>
    exact h.client id _ line.channel linked (.inr ⟨h.told id .sending on, dead, rfl⟩)
  | @take id answer on =>
    exact h.client id _ line.channel linked (.inl ⟨answer, h.told id _ on, rfl⟩)
  | @giveUp id on =>
    obtain ⟨hserved, hgone⟩ := h.told id .cut on
    exact h.client id _ line.channel linked (.inr ⟨hserved, hgone, rfl⟩)
  | stop => exact h.owner .joining (some .stop) linked
  | stopRefused => exact h.owner .joining line.channel linked
  | join => exact h.owner .joined line.channel linked
  | @receive id on next =>
    exact h.worker (by simp [on]) id .taken none (.executing id) linked
      (h.told id .queued ((h.linked.queued id).mp next)) (by simp [Open, on])
      (h.quiet (.inl on))
  | receiveStop on next =>
    refine h.still (by simp [on]) none .leaving linked (by simp [Open, on]) ?_
    exact Nat.le_succ_of_le (Nat.le_of_eq (h.quiet (.inl on)))
  | execute on asked files =>
    exact h.execute on asked files linked rfl rfl rfl (by simp) (by simp)
  | @reply id request answer on asked done =>
    have hstage := h.stage
    rw [on, Stage, asked] at hstage
    refine h.worker (by simp [on]) id (.answered answer) line.channel
      (if request = .shutdown then .leaving else .receiving) linked (h.told id _ done) ?_ ?_
    · unfold Open
      split
      · simp [on]
      · simp [on]
    split
    · next hrequest =>
      rw [hrequest, if_pos rfl] at hstage
      exact Nat.le_of_eq hstage
    · next hrequest =>
      rw [if_neg (by simpa using hrequest)] at hstage
      exact hstage
  | finish on files => exact h.finish on files linked rfl rfl rfl (fun _ => rfl) fun _ => rfl
  | close on =>
    have hstage := h.stage
    rw [on] at hstage
    cases hchannel : line.channel with
    | none =>
      simp only [lose, hchannel] at linked ⊢
      exact h.still (by simp [on]) none .gone linked (by simp [Open, on]) hstage
    | some letter =>
      cases letter with
      | call id =>
        simp only [lose, hchannel] at linked ⊢
        exact h.worker (by simp [on]) id .cut none .gone linked
          ⟨h.told id .queued ((h.linked.queued id).mp hchannel), rfl⟩ (by simp [Open, on])
          hstage
      | stop =>
        simp only [lose, hchannel] at linked ⊢
        exact h.still (by simp [on]) none .gone linked (by simp [Open, on]) hstage

theorem Sound.issue (h : Sound start line) (request : Request) :
    Sound start (line.issue request) := by
  have hold {id : Nat} {request : Request} (asked : line.asked? id = some request) :
      id ≠ line.calls.length := by
    rintro rfl
    rw [line.asked_length] at asked
    cases asked
  refine ⟨h.linked.issue request, ?_, h.once, ?_, h.order, h.running, h.finished, ?_⟩
  · intro entry hmem id hcaller
    have asked := h.known entry hmem id hcaller
    rw [asked_issue, if_neg (hold asked), asked]
  · intro id progress hat
    rw [at_issue] at hat
    split at hat
    · next hnew =>
      cases hat
      intro hmem
      obtain ⟨entry, hentry, hcaller⟩ := mem_served.mp hmem
      exact hold (h.known entry hentry id hcaller) hnew
    · exact h.told id progress hat
  · refine h.stage.congr rfl fun id on => ?_
    obtain ⟨answer, hat⟩ := h.linked.executed id on
    obtain ⟨asked, hasked⟩ := asked_of_at hat
    rw [asked_issue, if_neg (hold hasked)]

theorem Sound.run {n : Nat} {first : Line σ} (h : Sound start first) (run : Run n first line) :
    Sound start line := by
  induction run with
  | refl => exact h
  | step _ step ih => exact (ih h).step step
  | issue _ request ih => exact (ih h).issue request
  | drop _ _ ih => exact (ih h).owner .stopping _ (ih h).linked.drop

theorem sound_start (start : Worker σ) : Sound start { worker := start } := by
  have hnone (id : Nat) : at? ({ worker := start } : Line σ) id = none := rfl
  have hopen : Open ({ worker := start } : Line σ) := by simp [Open]
  refine ⟨?_, fun entry hmem => absurd hmem List.not_mem_nil, List.nodup_nil, ?_,
    Worker.inOrder_nil start, fun _ => rfl, fun closed => absurd hopen closed, rfl⟩
  · constructor <;> simp [hnone]
  · intro id progress hat
    cases hat

end
end Line
end Nes
