/-
  A console with storage, run by a worker that answers one request after the other.

  The worker serves all storage traffic itself. Whatever ends it, the console is shut down
  first, so no save is lost; who calls after that finds the line dead.
-/
import Nes.Console.Basic
import Nes.Host.Storage

namespace Nes

/-- Why a call fails. -/
inductive CallError
  /-- The worker has ended. -/
  | disconnected
  /-- The console could not load its cartridge. -/
  | load (error : LoadError)
deriving DecidableEq, Inhabited

/-- The text shown for a failed call. -/
def CallError.message : CallError → String
  | .disconnected => "runtime control channel disconnected"
  | .load error => error.message

/-- What a worker is told. -/
inductive Message
  /-- A client's request. -/
  | execute (request : Request)
  /-- The owner is gone. -/
  | stop
deriving DecidableEq, Inhabited

/-- A worker with storage `σ`. -/
structure Worker (σ : Type) where
  console : Console := {}
  storage : σ
  /-- The worker has ended. -/
  ended : Bool := false

namespace Worker

variable {σ : Type} [Storage σ]

/-- Serves one of the console's wishes. -/
def serve (files : Files) (worker : Worker σ) : StorageRequest → Worker σ
  | .load key size =>
    let bytes := Storage.load worker.storage key size
    { worker with console := (worker.console.execute files (.storage bytes)).2 }
  | .save key data => { worker with storage := Storage.save worker.storage key data }

/-- Runs a request and serves what the console wishes, which is then no part of the answer. -/
def execute (worker : Worker σ) (files : Files) (request : Request) :
    Except LoadError Response × Worker σ :=
  let ⟨console, storage, ended⟩ := worker
  match console.execute files request with
  | (.ok response, console) =>
    (.ok { response with storage := [] },
      response.storage.foldl (serve files) ⟨console, storage, ended⟩)
  | (.error error, console) => (.error error, ⟨console, storage, ended⟩)

/-- Ends the worker. A console that still runs is shut down. -/
def finish (worker : Worker σ) (files : Files) : Worker σ :=
  let worker := if worker.console.isHalted then worker else (worker.execute files .shutdown).2
  { worker with ended := true }

/-- Handles a message; a request has an answer. -/
def handle (worker : Worker σ) (files : Files) :
    Message → Option (Except LoadError Response) × Worker σ
  | .stop => (none, worker.finish files)
  | .execute request =>
    let (answer, worker) := worker.execute files request
    (some answer, if request = .shutdown then worker.finish files else worker)

/-- A client's call, which waits as long as it takes: the worker's answer, if there still is a
    worker. -/
def call (worker : Worker σ) (files : Files) (request : Request) :
    Except CallError Response × Worker σ :=
  if worker.ended then (.error .disconnected, worker)
  else
    match worker.handle files (.execute request) with
    | (some (.ok response), worker) => (.ok response, worker)
    | (some (.error error), worker) => (.error (.load error), worker)
    | (none, worker) => (.error .disconnected, worker)

/-- The owner drops the worker. -/
def drop (worker : Worker σ) (files : Files) : Worker σ :=
  if worker.ended then worker else (worker.handle files .stop).2

end Worker
end Nes
