/-
  The console and the requests it answers.

  A request never fails but for a frame that has to load a cartridge first and cannot. The
  console is then as it was before, so the request can be made again.

  A cartridge with a battery waits for its stored image before its first frame, and hands out
  save RAM when the schedule says so and when the console stops.
-/
import Nes.Console.Request
import Nes.Console.Scan
import Nes.Save.Schedule

namespace Nes

/-- Frames in a row that can go undrawn. -/
def skipLimit : Nat := 4

/-- What the next frame does. -/
inductive Phase
  /-- It loads the cartridge and switches everything on. -/
  | powerOn
  /-- It presses the reset button. -/
  | reset
  /-- Nothing; the stored image of save RAM has not come yet. -/
  | awaitStorage
  /-- It goes on. -/
  | running
  /-- Nothing, for ever. -/
  | halted
deriving DecidableEq, Inhabited

/-- The console. -/
structure Console where
  cpu : Cpu := {}
  hardware : Hardware := {}
  cartridge : Option Cartridge := none
  registry : Registry := {}
  /-- The cartridge that was chosen last. -/
  source : Option Source := none
  phase : Phase := .powerOn
  /-- Frames since the last one that was drawn. -/
  skipped : Nat := 0
  schedule : SaveSchedule := {}

instance : Inhabited Console := ⟨{}⟩

/-- How image files are read. -/
abbrev Files := String → Except FileFault Bytes

/-- Loads the cartridge from where it comes. -/
def Source.load (source : Source) (files : Files) (registry : Registry) :
    Except LoadError Cartridge :=
  match source with
  | .file path =>
    match files path with
    | .ok bytes => Cartridge.load registry bytes none
    | .error fault => .error (.unreadable path fault)
  | .image bytes => Cartridge.load registry bytes none
  | .imageFor id bytes => Cartridge.load registry bytes (some id)

namespace Console

@[inline] def isHalted (console : Console) : Bool := console.phase == .halted

/-- The cartridge, if it has a battery. -/
def battery? (console : Console) : Option Cartridge := console.cartridge.filter (·.battery)

/-- Asks for save RAM to be stored. From now on that image is the stored one. -/
def save (console : Console) : List StorageRequest × Console :=
  match console.battery? with
  | some cartridge =>
    ([.save cartridge.image.key cartridge.save.bytes],
      { console with schedule := .fresh cartridge.save.writes })
  | none => ([], console)

/-! ## Switching on and starting over -/

/-- Loads the chosen cartridge. -/
def chosen (console : Console) (files : Files) : Except LoadError Cartridge :=
  match console.source with
  | some source => source.load files console.registry
  | none => .error .noCartridge

/-- Plugs a cartridge in and switches the console on. Nothing of what ran before is left. -/
def powerOn (console : Console) (cartridge : Cartridge) : Journal × Console :=
  let hardware : Hardware :=
    { ppu := console.hardware.ppu.reset .power, apu := console.hardware.apu.reset .power }
  let system : System := { hardware, cartridge }
  let machine := Machine.reset ⟨console.cpu, system.initBoard .power⟩ .power
  let system := machine.bus
  (system.journal, { console with
    cpu := machine.cpu, hardware := system.hardware, skipped := 0
    schedule := .fresh system.cartridge.save.writes
    phase := if system.cartridge.battery then .awaitStorage else .running
    cartridge := some system.cartridge })

/-- Presses the reset button: the board, the PPU, the APU and the CPU start over and the
    memories keep what they hold. -/
def pressReset (console : Console) : Journal × Console :=
  let ⟨cpu, hardware, cartridge, registry, source, _, skipped, schedule⟩ := console
  match cartridge with
  | none => (#[], ⟨cpu, hardware, none, registry, source, .running, skipped, schedule⟩)
  | some cartridge =>
    let system := System.initBoard ⟨hardware, cartridge, #[]⟩ .soft
    let system := (system.mapPpu (·.reset .soft)).mapApu (·.reset .soft)
    let machine := Machine.reset ⟨cpu, system⟩ .soft
    let system := machine.bus
    (system.journal, ⟨machine.cpu, system.hardware, some system.cartridge, registry, source,
      .running, 0, schedule⟩)

/-! ## Frames -/

/-- Emulates a frame, drawn or not. Without a cartridge nothing runs. -/
def emulate (console : Console) (buttons : UInt8 × UInt8) (drawn : Bool) : Response × Console :=
  let ⟨cpu, hardware, cartridge, registry, source, phase, skipped, schedule⟩ := console
  let picture := if drawn then some Picture.blank else none
  match cartridge with
  | none =>
    let hardware := { hardware with io := hardware.io.setButtons buttons }
    ({ screen := picture, sound := some #[] },
      ⟨cpu, hardware, none, registry, source, phase, skipped, schedule⟩)
  | some cartridge =>
    let system := System.mapIo ⟨hardware, cartridge, #[]⟩ (·.setButtons buttons)
    let scan := Scan.frame { machine := ⟨cpu, system⟩, picture }
    let system := scan.machine.bus
    ({ screen := scan.picture, sound := some scan.sound, journal := system.journal },
      ⟨scan.machine.cpu, system.hardware, some system.cartridge, registry, source, phase,
        skipped, schedule⟩)

/-- Ends a frame; the answer says what is to be stored now. -/
def endFrame (console : Console) : List StorageRequest × Console :=
  match console.battery? with
  | some cartridge =>
    let (due, schedule) := console.schedule.endFrame cartridge.save.writes
    let console := { console with schedule }
    if due then console.save else ([], console)
  | none => ([], console)

/-- Emulates a frame and ends it. -/
def play (console : Console) (buttons : UInt8 × UInt8) (drawn : Bool) : Response × Console :=
  let (response, console) := console.emulate buttons drawn
  let (storage, console) := console.endFrame
  ({ response with storage }, console)

/-- Emulates a frame unless too many in a row would go undrawn. -/
def advance (console : Console) (buttons : UInt8 × UInt8) (drawn : Bool) : Response × Console :=
  if drawn then { console with skipped := 0 }.play buttons drawn
  else if skipLimit ≤ console.skipped then ({}, console)
  else { console with skipped := console.skipped + 1 }.play buttons drawn

/-- Answers a request for a frame. A cartridge with a battery that was just plugged in only
    asks for its stored image. -/
def runFrame (console : Console) (files : Files) (buttons : UInt8 × UInt8) (drawn : Bool) :
    Except LoadError Response × Console :=
  match console.phase with
  | .powerOn =>
    match console.chosen files with
    | .error error => (.error error, console)
    | .ok cartridge =>
      let (key, battery) := (cartridge.image.key, cartridge.battery)
      let (journal, console) := console.powerOn cartridge
      if battery then (.ok { storage := [.load key saveSize], journal }, console)
      else
        let (response, console) := console.advance buttons drawn
        (.ok { response with journal := journal ++ response.journal }, console)
  | .reset =>
    let (journal, console) := console.pressReset
    let (response, console) := console.advance buttons drawn
    (.ok { response with journal := journal ++ response.journal }, console)
  | .running =>
    let (response, console) := console.advance buttons drawn
    (.ok response, console)
  | .awaitStorage | .halted => (.ok {}, console)

/-! ## Requests -/

/-- Takes over the stored image, if it was asked for. -/
def acceptStorage (console : Console) (bytes : Bytes) : Console :=
  if console.phase = .awaitStorage then
    match console.cartridge with
    | some cartridge =>
      let cartridge := { cartridge with save := cartridge.save.load bytes }
      { console with
        schedule := .fresh cartridge.save.writes
        cartridge := some cartridge
        phase := .running }
    | none => { console with phase := .running }
  else console

/-- Stops. A cartridge that still waits for its stored image has nothing to store. -/
def shutDown (console : Console) : Response × Console :=
  let (storage, console) :=
    if console.phase = .awaitStorage then ([], console) else console.save
  ({ storage }, { console with phase := .halted })

/-- Answers a request. A console that has stopped gives nothing. -/
def execute (console : Console) (files : Files) (request : Request) :
    Except LoadError Response × Console :=
  if console.isHalted then (.ok {}, console)
  else
    match request with
    | .frame buttons => console.runFrame files buttons true
    | .skip buttons => console.runFrame files buttons false
    | .reset =>
      let phase := if console.phase = .running then .reset else console.phase
      (.ok {}, { console with phase })
    | .shutdown =>
      let (response, console) := console.shutDown
      (.ok response, console)
    | .insert source => (.ok {}, { console with source := some source, phase := .powerOn })
    | .storage bytes => (.ok {}, console.acceptStorage bytes)

end Console
end Nes
