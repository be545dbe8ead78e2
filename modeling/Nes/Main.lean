/-
  The command line: runs an image for some frames without a screen.
-/
import Nes.CommandLine
import Nes.Host.PacedFrame

namespace Nes

/-- A host while it runs. -/
structure Session where
  worker : Worker MemoryStorage
  pacer : Pacer := {}
  /-- The sound so far. -/
  sound : ByteArray := .empty

namespace Session

/-- The only file is the image, which is read before. -/
def files : Files := fun _ => .error .notFound

/-- Runs one frame. -/
def frame (session : Session) (options : Options) : IO (Except CallError Session) := do
  let ⟨worker, pacer, sound⟩ := session
  let buttons := (options.buttons, 0)
  let (answer, worker, pacer) ←
    if options.realtime then do
      let wait := pacer.remaining (← IO.monoNanosNow)
      if 0 < wait then IO.sleep (UInt32.ofNat (wait / 1000000))
      pure (worker.pacedFrame files pacer (← IO.monoNanosNow) buttons)
    else
      let (answer, worker) := worker.call files (.frame buttons)
      pure (answer, worker, pacer)
  return answer.map fun response =>
    ⟨worker, pacer, (response.sound.getD #[]).foldl ByteArray.push sound⟩

/-- Runs frames until one fails. -/
def frames (session : Session) (options : Options) :
    (count : Nat) → IO (Except CallError Session)
  | 0 => return .ok session
  | count + 1 => do
    match ← session.frame options with
    | .ok session => session.frames options count
    | .error error => return .error error

/-- Takes over the save of an earlier session. -/
def start (options : Options) (key : String) (image : Bytes) : IO Session := do
  let storage : MemoryStorage ← match options.savePath? key with
    | some path =>
      try pure (MemoryStorage.insert {} key (← IO.FS.readBinFile path).data)
      catch _ => pure {}
    | none => pure {}
  let worker : Worker MemoryStorage := { storage }
  return { worker := (worker.call files (.insert (options.source image))).2 }

/-- Stops the worker and writes what is to be kept. -/
def finish (session : Session) (options : Options) (key : String) : IO Unit := do
  let worker := session.worker.drop files
  if let some path := options.sound then IO.FS.writeBinFile path session.sound
  if let some path := options.savePath? key then
    if let some data := worker.storage.get? key then
      IO.FS.createDirAll (options.saves.getD ".")
      IO.FS.writeBinFile path ⟨data⟩

end Session

/-- Runs an image. -/
def runImage (options : Options) : IO UInt32 := do
  let image := (← IO.FS.readBinFile options.image).data
  let key := Digest.sha1 image
  let session ← Session.start options key image
  match ← session.frames options options.frames with
  | .ok session =>
    session.finish options key
    return 0
  | .error error =>
    IO.eprintln error.message
    return 1

end Nes

def main (arguments : List String) : IO UInt32 := do
  match Nes.Options.parse arguments with
  | .ok options => Nes.runImage options
  | .error error =>
    IO.eprintln error.message
    IO.eprintln Nes.Options.usage
    return 2
