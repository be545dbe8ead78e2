/-
  A client of a worker that runs beside it.

  The client waits for an answer only for so long. One that comes later is lost, but not the
  request, which the worker serves all the same; and the requests are served in the order in which
  they are made. The client's clock ends at some moment, and a frame whose time cannot be planned
  aborts the call.
-/
import Nes.Host.PacedFrame

namespace Nes

/-- Why a client has no answer. -/
inductive ClientError
  /-- The answer does not come in time. -/
  | timeout
  /-- The call fails. -/
  | call (error : CallError)
deriving DecidableEq, Inhabited

/-- The text shown for a call without an answer. -/
def ClientError.message : ClientError → String
  | .timeout => "runtime did not respond in time for execute"
  | .call error => error.message

/-- A client. -/
structure Client where
  /-- How long it waits for an answer. -/
  patience : Nat := 2000000000
  /-- The last moment that its clock can tell. -/
  lastMoment : Nat := longestDuration
  lastMoment_le : lastMoment ≤ longestDuration := by decide

namespace Client

variable {σ : Type} [Storage σ]

/-- A call whose answer comes after the time `took`. A dead line is noticed at once. -/
def call (client : Client) (worker : Worker σ) (files : Files) (request : Request) (took : Nat) :
    Except ClientError Response × Worker σ :=
  match worker.call files request with
  | (.error .disconnected, worker) => (.error (.call .disconnected), worker)
  | (answer, worker) =>
    (if client.patience < took then .error .timeout else answer.mapError .call, worker)

/-- Calls of which the one with number `n` is answered after the time `took n`. -/
def asks (client : Client) (files : Files) (took : Nat → Nat) : Worker.Asks σ ClientError :=
  fun number worker request => client.call worker files request (took number)

/-- Runs the frame that is due at `now`, after those that have to be skipped. There is no result if
    the call is aborted. -/
def pacedFrame (client : Client) (worker : Worker σ) (files : Files) (pacer : Pacer) (now : Nat)
    (buttons : UInt8 × UInt8) (took : Nat → Nat) :
    Option (Except ClientError Response) × Worker σ × Pacer :=
  match pacer.plan? client.lastMoment now with
  | (none, pacer) => (none, worker, pacer)
  | (some skips, pacer) =>
    let (answer, worker) := worker.playFrames (client.asks files took) buttons skips
    (some answer, worker, pacer)

end Client
end Nes
