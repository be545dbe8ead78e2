/-
  Frames in time: the ones that are late are skipped, and their sound is heard before that of
  the frame that is drawn.
-/
import Nes.Host.Pacer
import Nes.Host.Worker

namespace Nes

namespace Worker

variable {σ E : Type}

/-- How the requests of a frame are made, by their numbers. -/
abbrev Asks (σ E : Type) := Nat → Worker σ → Request → Except E Response × Worker σ

/-- Skips `count` frames, the first by the request with the given number, and adds their sound to
    `sound`. -/
def skipFrames (ask : Asks σ E) (worker : Worker σ) (buttons : UInt8 × UInt8) (sound : Bytes)
    (number : Nat) : (count : Nat) → Except E Bytes × Worker σ
  | 0 => (.ok sound, worker)
  | count + 1 =>
    match ask number worker (.skip buttons) with
    | (.ok response, worker) =>
      skipFrames ask worker buttons (sound ++ response.sound.getD #[]) (number + 1) count
    | (.error error, worker) => (.error error, worker)

/-- Runs a frame that is drawn, after those that have to be skipped. -/
def playFrames (ask : Asks σ E) (worker : Worker σ) (buttons : UInt8 × UInt8) (skips : Nat) :
    Except E Response × Worker σ :=
  match worker.skipFrames ask buttons #[] 0 skips with
  | (.error error, worker) => (.error error, worker)
  | (.ok sound, worker) =>
    match ask skips worker (.frame buttons) with
    | (.error error, worker) => (.error error, worker)
    | (.ok response, worker) =>
      let response :=
        if sound.isEmpty then response
        else { response with sound := some (sound ++ response.sound.getD #[]) }
      (.ok response, worker)

variable [Storage σ]

/-- Runs the frame that is due at `now`, after those that have to be skipped. -/
def pacedFrame (worker : Worker σ) (files : Files) (pacer : Pacer) (now : Nat)
    (buttons : UInt8 × UInt8) : Except CallError Response × Worker σ × Pacer :=
  let (skips, pacer) := pacer.plan now
  let ask : Asks σ CallError := fun _ worker request => worker.call files request
  let (answer, worker) := worker.playFrames ask buttons skips
  (answer, worker, pacer)

end Worker
end Nes
