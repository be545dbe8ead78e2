/-
  A worker and its clients, who all run at once.

  A `Line` is the worker with its point in its loop, the channel on which it receives, which holds
  one message, and all calls that clients have made so far, each with a channel of its own for the
  answer. `Line.Step` lists what can happen next, in any order: a client sends, is refused, or
  comes back with an answer or without; the worker receives, executes, replies, leaves its loop,
  shuts a console down that still runs, and drops its end of the channel, by which a message still
  in there is lost; the owner who drops the worker tells it to stop and waits for its end.
  `Line.Run` is any number of such steps, with further calls at any time and at most one drop.

  The owner keeps its end of the channel until the worker has ended, so the worker never finds
  that nobody can send any more.

  `log` is the order in which the console executes requests. It is no part of the program: nothing
  that happens depends on it. `Worker.replay` executes a log once more, one request after the
  other, and `Worker.InOrder` says that it gives the same answers.
-/
import Nes.Host.Worker
import Nes.Proofs.Console.Answers

namespace Nes
namespace Line

/-- How far a client's call has got. -/
inductive Progress
  /-- The client tries to send its message. -/
  | sending
  /-- The message is in the channel. From here on the client waits for the answer. -/
  | queued
  /-- The worker has the message. -/
  | taken
  /-- The request was executed, and the answer is still to be sent. -/
  | executed (answer : Except LoadError Response)
  /-- The answer is in the call's own channel. -/
  | answered (answer : Except LoadError Response)
  /-- The message is lost, and the call's own channel is dead. -/
  | cut
  /-- The call has come back. -/
  | returned (result : Except CallError Response)

/-- A call that a client has made. -/
structure Call where
  request : Request
  progress : Progress := .sending

/-- A message in the channel. -/
inductive Letter
  /-- The request of the call with this number. -/
  | call (id : Nat)
  /-- The owner is gone. -/
  | stop

/-- Where the worker is in its loop. -/
inductive Point
  | receiving
  | executing (id : Nat)
  | replying (id : Nat)
  /-- The loop is left, and the console may still have to be shut down. -/
  | leaving
  /-- All is done but for dropping the channel. -/
  | closing
  | gone

/-- What the owner of the worker does with it. -/
inductive Owner
  | holding
  /-- The owner drops the worker, and tries to send that it is gone. -/
  | stopping
  /-- The owner waits for the worker to end. -/
  | joining
  | joined

/-- A request that the console has executed. -/
structure Execution where
  /-- The call that it came from; none if the worker itself shuts the console down. -/
  caller : Option Nat
  turn : Turn
  answer : Except LoadError Response

end Line

/-- A worker, its channel, its owner and its clients. -/
structure Line (σ : Type) where
  worker : Worker σ
  point : Line.Point := .receiving
  channel : Option Line.Letter := none
  calls : List Line.Call := []
  owner : Line.Owner := .holding
  log : List Line.Execution := []

/-! ## A log and its worker -/

namespace Worker

section
variable {σ : Type} [Storage σ]

/-- The worker after all requests of a log. -/
def replay (worker : Worker σ) (log : List Line.Execution) : Worker σ :=
  log.foldl (fun worker entry => (worker.execute entry.turn.files entry.turn.request).2) worker

/-- Every answer is what its request gives when all before it in the log are done. -/
def InOrder (start : Worker σ) (log : List Line.Execution) : Prop :=
  ∀ before entry after, log = before ++ entry :: after →
    entry.answer = ((start.replay before).execute entry.turn.files entry.turn.request).1

/-- What the worker executes of its own accord when it has left its loop. -/
def farewell (worker : Worker σ) (files : Files) : List Line.Execution :=
  if worker.console.isHalted then []
  else [⟨none, ⟨files, .shutdown⟩, (worker.execute files .shutdown).1⟩]

theorem farewell_callers (worker : Worker σ) (files : Files) :
    (worker.farewell files).filterMap Line.Execution.caller = [] := by
  unfold farewell
  split
  · rfl
  · rfl

theorem replay_append (start : Worker σ) (log log' : List Line.Execution) :
    start.replay (log ++ log') = (start.replay log).replay log' := List.foldl_append

theorem inOrder_nil (start : Worker σ) : InOrder start [] := by
  intro before entry after h
  cases before with
  | nil => cases h
  | cons => cases h

theorem InOrder.snoc {start : Worker σ} {log : List Line.Execution} (h : InOrder start log)
    {entry : Line.Execution}
    (answer : entry.answer =
      ((start.replay log).execute entry.turn.files entry.turn.request).1) :
    InOrder start (log ++ [entry]) := by
  intro before entry' after hsplit
  cases List.eq_nil_or_concat after with
  | inl hnil =>
    rw [hnil] at hsplit
    obtain ⟨rfl, hentry⟩ := List.append_inj' hsplit rfl
    cases hentry
    exact answer
  | inr hconcat =>
    obtain ⟨middle, last, rfl⟩ := hconcat
    rw [List.concat_eq_append, ← List.cons_append, ← List.append_assoc] at hsplit
    exact h before entry' middle (List.append_inj' hsplit rfl).1

/-- Ending shuts the console down, unless that is done. -/
theorem finish_eq (worker : Worker σ) (files : Files) :
    worker.finish files = { worker.replay (worker.farewell files) with ended := true } := by
  unfold finish farewell
  split
  · rfl
  · rfl

theorem InOrder.farewell {start : Worker σ} {log : List Line.Execution} (h : InOrder start log)
    (files : Files) : InOrder start (log ++ (start.replay log).farewell files) := by
  unfold Worker.farewell
  split
  · rwa [List.append_nil]
  · exact h.snoc rfl

theorem serve_isHalted (files : Files) (worker : Worker σ) (wish : StorageRequest) :
    (worker.serve files wish).console.isHalted = worker.console.isHalted := by
  cases wish with
  | load key size =>
    let turn : Turn := ⟨files, .storage (Storage.load worker.storage key size)⟩
    have hserve : (worker.serve files (.load key size)).console = (worker.console.take turn).2 :=
      rfl
    rw [hserve, Console.isHalted_take]
    simp [turn]
  | save => rfl

theorem serves_isHalted (files : Files) (worker : Worker σ) (wishes : List StorageRequest) :
    (wishes.foldl (serve files) worker).console.isHalted = worker.console.isHalted := by
  induction wishes generalizing worker with
  | nil => rfl
  | cons wish wishes ih => rw [List.foldl_cons, ih, serve_isHalted]

/-- The console has stopped if it had, or if that was the request. -/
theorem execute_isHalted (worker : Worker σ) (files : Files) (request : Request) :
    (worker.execute files request).2.console.isHalted =
      (worker.console.isHalted || request = .shutdown) := by
  have hconsole : (worker.execute files request).2.console.isHalted =
      (worker.console.take ⟨files, request⟩).2.isHalted := by
    unfold execute Console.take
    dsimp only
    split
    · next hexecute => rw [serves_isHalted, hexecute]
    · next hexecute => rw [hexecute]
  rw [hconsole, Console.isHalted_take]

theorem replay_isHalted (start : Worker σ) (log : List Line.Execution) :
    (start.replay log).console.isHalted =
      (start.console.isHalted || log.any fun entry => entry.turn.request = .shutdown) := by
  induction log generalizing start with
  | nil => exact (Bool.or_false _).symm
  | cons entry log ih =>
    rw [List.any_cons, ← Bool.or_assoc, ← execute_isHalted start entry.turn.files]
    exact ih _

end
end Worker

namespace Line

section
variable {σ : Type}

/-! ## What can happen -/

/-- How far the call with a number has got. -/
def at? (line : Line σ) (id : Nat) : Option Progress := line.calls[id]?.map Call.progress

/-- The request of the call with a number. -/
def asked? (line : Line σ) (id : Nat) : Option Request := line.calls[id]?.map Call.request

/-- A call gets further. -/
def advance (line : Line σ) (id : Nat) (progress : Progress) : Line σ :=
  { line with calls := line.calls.modify id fun call => { call with progress } }

/-- Whoever waits for an answer to the message in the channel never gets one. -/
def lose (line : Line σ) : Line σ :=
  match line.channel with
  | some (.call id) => line.advance id .cut
  | some .stop | none => line

/-- A client makes another call. -/
def issue (line : Line σ) (request : Request) : Line σ :=
  { line with calls := line.calls ++ [{ request }] }

variable [Storage σ]

/-- What can happen next. The files are those that can be read at that moment. -/
inductive Step : Line σ → Line σ → Prop
  -- a client
  | send {line : Line σ} {id : Nat} (on : line.at? id = some .sending)
      (room : line.channel = none) (alive : line.point ≠ .gone) :
      Step line { line.advance id .queued with channel := some (.call id) }
  | refuse {line : Line σ} {id : Nat} (on : line.at? id = some .sending)
      (dead : line.point = .gone) :
      Step line (line.advance id (.returned (.error .disconnected)))
  | take {line : Line σ} {id : Nat} {answer : Except LoadError Response}
      (on : line.at? id = some (.answered answer)) :
      Step line (line.advance id (.returned (answer.mapError .load)))
  | giveUp {line : Line σ} {id : Nat} (on : line.at? id = some .cut) :
      Step line (line.advance id (.returned (.error .disconnected)))
  -- the owner
  | stop {line : Line σ} (on : line.owner = .stopping) (room : line.channel = none)
      (alive : line.point ≠ .gone) :
      Step line { line with owner := .joining, channel := some .stop }
  | stopRefused {line : Line σ} (on : line.owner = .stopping) (dead : line.point = .gone) :
      Step line { line with owner := .joining }
  | join {line : Line σ} (on : line.owner = .joining) (dead : line.point = .gone) :
      Step line { line with owner := .joined }
  -- the worker
  | receive {line : Line σ} {id : Nat} (on : line.point = .receiving)
      (next : line.channel = some (.call id)) :
      Step line { line.advance id .taken with channel := none, point := .executing id }
  | receiveStop {line : Line σ} (on : line.point = .receiving)
      (next : line.channel = some .stop) :
      Step line { line with channel := none, point := .leaving }
  | execute {line : Line σ} {id : Nat} {request : Request} (on : line.point = .executing id)
      (asked : line.asked? id = some request) (files : Files) :
      Step line { line.advance id (.executed (line.worker.execute files request).1) with
        worker := (line.worker.execute files request).2
        point := .replying id
        log := line.log ++
          [⟨some id, ⟨files, request⟩, (line.worker.execute files request).1⟩] }
  | reply {line : Line σ} {id : Nat} {request : Request} {answer : Except LoadError Response}
      (on : line.point = .replying id) (asked : line.asked? id = some request)
      (done : line.at? id = some (.executed answer)) :
      Step line { line.advance id (.answered answer) with
        point := if request = .shutdown then .leaving else .receiving }
  | finish {line : Line σ} (on : line.point = .leaving) (files : Files) :
      Step line { line with
        worker := line.worker.finish files
        point := .closing
        log := line.log ++ line.worker.farewell files }
  | close {line : Line σ} (on : line.point = .closing) :
      Step line { line.lose with channel := none, point := .gone }

/-- A number of things happen, one after the other. -/
inductive Run : Nat → Line σ → Line σ → Prop
  | refl (line : Line σ) : Run 0 line line
  | step {n : Nat} {first line line' : Line σ} (run : Run n first line) (step : line.Step line') :
      Run (n + 1) first line'
  | issue {n : Nat} {first line : Line σ} (run : Run n first line) (request : Request) :
      Run (n + 1) first (line.issue request)
  | drop {n : Nat} {first line : Line σ} (run : Run n first line) (on : line.owner = .holding) :
      Run (n + 1) first { line with owner := .stopping }

theorem Run.trans {n m : Nat} {first line line' : Line σ} (run : Run n first line)
    (run' : Run m line line') : Run (n + m) first line' := by
  induction run' with
  | refl => exact run
  | step _ step ih => exact (ih run).step step
  | issue _ request ih => exact (ih run).issue request
  | drop _ on ih => exact (ih run).drop on

end

/-! ## Calls -/

section
variable {σ : Type} {line : Line σ} {id : Nat} {progress : Progress}

@[simp, grind =]
theorem at_mk (worker : Worker σ) (point : Point) (channel : Option Letter) (line : Line σ)
    (owner : Owner) (log : List Execution) (id : Nat) :
    at? ⟨worker, point, channel, line.calls, owner, log⟩ id = line.at? id := rfl

@[simp, grind =]
theorem asked_mk (worker : Worker σ) (point : Point) (channel : Option Letter) (line : Line σ)
    (owner : Owner) (log : List Execution) (id : Nat) :
    asked? ⟨worker, point, channel, line.calls, owner, log⟩ id = line.asked? id := rfl

@[simp, grind =]
theorem advance_point (line : Line σ) (id : Nat) (progress : Progress) :
    (line.advance id progress).point = line.point := rfl

@[simp, grind =]
theorem advance_channel (line : Line σ) (id : Nat) (progress : Progress) :
    (line.advance id progress).channel = line.channel := rfl

@[simp, grind =]
theorem advance_owner (line : Line σ) (id : Nat) (progress : Progress) :
    (line.advance id progress).owner = line.owner := rfl

@[simp, grind =]
theorem at_advance (line : Line σ) (id : Nat) (progress : Progress) (j : Nat) :
    (line.advance id progress).at? j =
      if j = id then (line.at? id).map fun _ => progress else line.at? j := by
  unfold at? advance
  dsimp only
  rw [List.getElem?_modify]
  by_cases h : id = j
  · subst h
    simp only [if_pos]
    cases line.calls[id]? with
    | none => rfl
    | some => rfl
  · have h' : ¬ j = id := fun heq => h heq.symm
    simp only [if_neg h, if_neg h']
    cases line.calls[j]? with
    | none => rfl
    | some => rfl

@[simp, grind =]
theorem asked_advance (line : Line σ) (id : Nat) (progress : Progress) (j : Nat) :
    (line.advance id progress).asked? j = line.asked? j := by
  unfold asked? advance
  dsimp only
  rw [List.getElem?_modify]
  split
  · cases line.calls[j]? with
    | none => rfl
    | some => rfl
  · simp

@[simp]
theorem lose_log (line : Line σ) : line.lose.log = line.log := by
  unfold lose
  split
  · rfl
  · rfl
  · rfl

@[simp]
theorem lose_worker (line : Line σ) : line.lose.worker = line.worker := by
  unfold lose
  split
  · rfl
  · rfl
  · rfl

theorem at_length (line : Line σ) : line.at? line.calls.length = none := by
  simp [at?]

theorem asked_length (line : Line σ) : line.asked? line.calls.length = none := by
  simp [asked?]

theorem at_issue (line : Line σ) (request : Request) (j : Nat) :
    (line.issue request).at? j =
      if j = line.calls.length then some .sending else line.at? j := by
  unfold at? issue
  dsimp only
  rw [List.getElem?_append, List.getElem?_singleton]
  grind

theorem asked_issue (line : Line σ) (request : Request) (j : Nat) :
    (line.issue request).asked? j =
      if j = line.calls.length then some request else line.asked? j := by
  unfold asked? issue
  dsimp only
  rw [List.getElem?_append, List.getElem?_singleton]
  grind

theorem asked_of_at (h : line.at? id = some progress) :
    ∃ request, line.asked? id = some request := by
  unfold at? asked? at *
  obtain ⟨call, hcall, _⟩ := Option.map_eq_some_iff.mp h
  exact ⟨call.request, by rw [hcall, Option.map_some]⟩

end
end Line
end Nes
