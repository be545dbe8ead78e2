/-
  What a host can ask of the console, and what it gets back.
-/
import Nes.Board.Slot
import Nes.Ppu.Render

namespace Nes

/-- Where the cartridge for the next power-on comes from. -/
inductive Source
  /-- A file, read at power-on. -/
  | file (path : String)
  /-- An image. -/
  | image (bytes : Bytes)
  /-- An image on the board with number `id`, whatever its header says. -/
  | imageFor (id : UInt16) (bytes : Bytes)
deriving DecidableEq, Inhabited

/-- What the host can ask for. -/
inductive Request
  /-- Emulate a frame and draw it; the buttons of both pads as masks. -/
  | frame (buttons : UInt8 × UInt8)
  /-- Emulate a frame without drawing it. -/
  | skip (buttons : UInt8 × UInt8)
  /-- Press the reset button. The next frame does it. -/
  | reset
  /-- Hand out save RAM and stop. -/
  | shutdown
  /-- Choose the cartridge. The next frame plugs it in and switches the console on. -/
  | insert (source : Source)
  /-- The stored image that the console asked for. -/
  | storage (bytes : Bytes)
deriving DecidableEq, Inhabited

/-- What the console wants of the host's storage. -/
inductive StorageRequest
  /-- Fetch `size` bytes. -/
  | load (key : String) (size : Nat)
  /-- Keep an image. -/
  | save (key : String) (data : Bytes)
deriving DecidableEq, Inhabited

/-- What a request gives; any part can be missing. -/
structure Response where
  screen : Option Picture := none
  /-- Samples, unsigned. -/
  sound : Option Bytes := none
  storage : List StorageRequest := []
  /-- The board's notes. -/
  journal : Journal := #[]
deriving DecidableEq, Inhabited

/-- Whether there is neither picture nor sound nor anything to store. -/
def Response.isEmpty (response : Response) : Bool :=
  response.screen.isNone && response.sound.isNone && response.storage.isEmpty

end Nes
