/-
  Among its clients a worker does what it does alone.

  `Worker.run` is the worker's loop over messages that are there from the start, and `Worker.call`
  a single client's call. `Looped` ties a worker among any number of clients to that loop: what
  the loop makes of the requests so far, in the order of the log, is the worker as it is. So a
  worker that has ended is one run of the loop (`gone_eq_run`), and every answer is what a call
  gives after those before it (`answer_eq_call`).
-/
import Nes.Proofs.Host.CallOrder
import Nes.Proofs.Host.Sessions

namespace Nes

namespace Worker

section
variable {σ : Type} [Storage σ]

theorem serves_ended (files : Files) (worker : Worker σ) (wishes : List StorageRequest) :
    (wishes.foldl (serve files) worker).ended = worker.ended := by
  induction wishes generalizing worker with
  | nil => rfl
  | cons wish wishes ih =>
    rw [List.foldl_cons, ih]
    cases wish with
    | load => rfl
    | save => rfl

theorem execute_ended (worker : Worker σ) (files : Files) (request : Request) :
    (worker.execute files request).2.ended = worker.ended := by
  unfold execute
  dsimp only
  split
  · rw [serves_ended]
  · rfl

theorem replay_ended (start : Worker σ) (log : List Line.Execution) :
    (start.replay log).ended = start.ended := by
  induction log generalizing start with
  | nil => rfl
  | cons entry log ih => exact (ih _).trans (execute_ended start _ _)

/-- A call comes back with what its request gives. -/
theorem call_eq {worker : Worker σ} (running : worker.ended = false) (files : Files)
    (request : Request) :
    (worker.call files request).1 = (worker.execute files request).1.mapError .load := by
  unfold call handle
  rw [running, if_neg Bool.false_ne_true]
  dsimp only
  cases (worker.execute files request).1 with
  | ok => rfl
  | error => rfl

/-- A request that does not stop the console keeps the loop going. -/
theorem run_request {worker : Worker σ} (running : worker.ended = false) {turn : Turn}
    (stays : turn.request ≠ .shutdown) (last : Files) (messages : List (Files × Message)) :
    worker.run last (turn.message :: messages) =
      (worker.execute turn.files turn.request).2.run last messages := by
  have hobey : worker.obey turn = (worker.execute turn.files turn.request).2 := by
    unfold obey handle
    dsimp only
    rw [if_neg stays]
  rw [run_message (by rw [hobey, execute_ended, running]), hobey]

/-- A console that has stopped is not told again. -/
theorem finish_halted {worker : Worker σ} (halted : worker.console.isHalted = true)
    (files : Files) : worker.finish files = { worker with ended := true } := by
  unfold finish
  rw [if_pos halted]

/-- One that does ends it. -/
theorem run_shutdown (worker : Worker σ) {turn : Turn} (stops : turn.request = .shutdown)
    (last : Files) (messages : List (Files × Message)) :
    worker.run last (turn.message :: messages) =
      { (worker.execute turn.files turn.request).2 with ended := true } := by
  have halted : (worker.execute turn.files turn.request).2.console.isHalted = true := by
    simp [execute_isHalted, stops]
  have hnext : (worker.handle turn.files (.execute turn.request)).2 =
      { (worker.execute turn.files turn.request).2 with ended := true } := by
    unfold handle
    dsimp only
    rw [if_pos stops, finish_halted halted]
  unfold Turn.message run
  dsimp only
  rw [hnext]
  rfl

theorem run_stop (worker : Worker σ) (files last : Files) :
    worker.run last [(files, .stop)] = worker.finish files := by
  have hended : (worker.finish files).ended = true := rfl
  unfold run handle
  dsimp only
  rw [if_pos hended]

end
end Worker

namespace Line

section
variable {σ : Type} {start : Worker σ} {line line' : Line σ}

/-- The clients' requests that were executed. -/
def obeyed (line : Line σ) : List Turn :=
  line.log.filterMap fun entry => entry.caller.map fun _ => entry.turn

variable [Storage σ]

/-- What the loop makes of the requests so far. -/
structure Looped (start : Worker σ) (line : Line σ) : Prop where
  running : line.Open → line.shutdowns = 0 → ∀ last messages,
    start.run last (line.obeyed.map Turn.message ++ messages) = line.worker.run last messages
  stopping : line.Open → line.shutdowns ≠ 0 → ∀ last,
    start.run last (line.obeyed.map Turn.message) = { line.worker with ended := true }
  ended : ¬ line.Open → ∃ last ending, (ending = [] ∨ ∃ files, ending = [(files, Message.stop)]) ∧
    start.run last (line.obeyed.map Turn.message ++ ending) = line.worker

theorem Looped.frame (h : Looped start line) (worker : line'.worker = line.worker)
    (log : line'.log = line.log) (hopen : line'.Open ↔ line.Open) : Looped start line' := by
  have hobeyed : line'.obeyed = line.obeyed := by rw [obeyed, log, obeyed]
  have hshutdowns : line'.shutdowns = line.shutdowns := by rw [shutdowns, log, shutdowns]
  constructor
  · rw [hobeyed, hshutdowns, worker, hopen]
    exact h.running
  · rw [hobeyed, hshutdowns, worker, hopen]
    exact h.stopping
  · rw [hobeyed, worker, hopen]
    exact h.ended

/-- A request is executed: the loop takes one message more. -/
theorem Looped.execute (h : Looped start line) (fresh : start.ended = false)
    (sound : Sound start line) {id : Nat} (on : line.point = .executing id) (turn : Turn)
    (worker : line'.worker = (line.worker.execute turn.files turn.request).2)
    (point : line'.point = .replying id) {answer : Except LoadError Response}
    (log : line'.log = line.log ++ [⟨some id, turn, answer⟩]) : Looped start line' := by
  have hopen : line.Open := by simp [Open, on]
  have hopen' : line'.Open := by simp [Open, point]
  have hquiet := sound.quiet (.inr ⟨id, on⟩)
  have hrun := h.running hopen hquiet
  have hfresh : line.worker.ended = false := by
    rw [sound.running hopen, Worker.replay_ended, fresh]
  have hobeyed : line'.obeyed.map Turn.message =
      line.obeyed.map Turn.message ++ [turn.message] := by
    simp [obeyed, log]
  have hshutdowns : line'.shutdowns = if turn.request = .shutdown then 1 else 0 := by
    have hbefore : line.log.countP (fun entry => entry.turn.request = .shutdown) = 0 := hquiet
    simp [shutdowns, log, hbefore]
  refine ⟨fun _ none last messages => ?_, fun _ some last => ?_, fun closed =>
    absurd hopen' closed⟩
  · have stays : turn.request ≠ .shutdown := by simpa [hshutdowns] using none
    rw [hobeyed, List.append_assoc, List.singleton_append, hrun,
      Worker.run_request hfresh stays, worker]
  · have stops : turn.request = .shutdown := by simpa [hshutdowns] using some
    rw [hobeyed, hrun, Worker.run_shutdown _ stops, worker]

/-- The worker leaves: the loop ends with the request that stopped the console, or the owner. -/
theorem Looped.finish (h : Looped start line) (sound : Sound start line)
    (on : line.point = .leaving) (files : Files) (worker : line'.worker = line.worker.finish files)
    (point : line'.point = .closing)
    (log : line'.log = line.log ++ line.worker.farewell files) : Looped start line' := by
  have hopen : line.Open := by simp [Open, on]
  have hopen' : ¬ line'.Open := by simp [Open, point]
  have hobeyed : line'.obeyed = line.obeyed := by
    have hown : (line.worker.farewell files).filterMap
        (fun entry => entry.caller.map fun _ => entry.turn) = [] := by
      unfold Worker.farewell
      split
      · rfl
      · rfl
    rw [obeyed, log, List.filterMap_append, hown, List.append_nil, obeyed]
  refine ⟨fun hopen => absurd hopen hopen', fun hopen => absurd hopen hopen', fun _ => ?_⟩
  rw [hobeyed, worker]
  by_cases hnone : line.shutdowns = 0
  · refine ⟨files, [(files, .stop)], .inr ⟨files, rfl⟩, ?_⟩
    rw [h.running hopen hnone, Worker.run_stop]
  · have hhalted : line.worker.console.isHalted = true := by
      rw [sound.running_isHalted hopen]
      simp [Nat.pos_of_ne_zero hnone]
    refine ⟨files, [], .inl rfl, ?_⟩
    rw [List.append_nil, h.stopping hopen hnone, Worker.finish_halted hhalted]

theorem Looped.step (h : Looped start line) (fresh : start.ended = false)
    (sound : Sound start line) (step : line.Step line') : Looped start line' := by
  cases step with
  | send | refuse | take | giveUp | stop | stopRefused | join => exact h.frame rfl rfl Iff.rfl
  | receive on | receiveStop on => exact h.frame rfl rfl (by simp [Open, on])
  | reply on =>
    refine h.frame rfl rfl ?_
    unfold Open
    split
    · simp [on]
    · simp [on]
  | close on => exact h.frame (lose_worker line) (lose_log line) (by simp [Open, on])
  | @execute id request on asked files =>
    exact h.execute fresh sound on ⟨files, request⟩ rfl rfl rfl
  | finish on files => exact h.finish sound on files rfl rfl rfl

theorem looped_run {n : Nat} (fresh : start.ended = false)
    (run : Run n { worker := start } line) : Looped start line := by
  generalize hfirst : ({ worker := start } : Line σ) = first at run
  induction run with
  | refl =>
    subst hfirst
    refine ⟨fun _ _ _ _ => rfl, fun _ some => absurd rfl some, fun closed => ?_⟩
    exact absurd (by simp [Open]) closed
  | step run step ih =>
    subst hfirst
    exact (ih rfl).step fresh ((sound_start start).run run) step
  | issue _ _ ih => exact (ih hfirst).frame rfl rfl Iff.rfl
  | drop _ _ ih => exact (ih hfirst).frame rfl rfl Iff.rfl

/-- A worker that has ended is what one run of its loop makes of the clients' requests, in the
    order in which they were executed, with the owner's message at the end if no client stopped
    the console. -/
theorem gone_eq_run {n : Nat} (fresh : start.ended = false)
    (run : Run n { worker := start } line) (gone : line.point = .gone) :
    ∃ last ending, (ending = [] ∨ ∃ files, ending = [(files, Message.stop)]) ∧
      line.worker = start.run last (line.obeyed.map Turn.message ++ ending) := by
  obtain ⟨last, ending, hending, hrun⟩ :=
    (looped_run fresh run).ended fun hopen => hopen.2 gone
  exact ⟨last, ending, hending, hrun.symm⟩

/-- Every answer is what a client's call gives after the requests before it. -/
theorem answer_eq_call {n : Nat} (fresh : start.ended = false)
    (run : Run n { worker := start } line) {before after : List Execution} {entry : Execution}
    (log : line.log = before ++ entry :: after) :
    entry.answer.mapError .load =
      ((start.replay before).call entry.turn.files entry.turn.request).1 := by
  have horder := ((sound_start start).run run).order before entry after log
  rw [Worker.call_eq (by rw [Worker.replay_ended, fresh]), horder]

end
end Line
end Nes
