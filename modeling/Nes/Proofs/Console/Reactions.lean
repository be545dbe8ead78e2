/-
  What a request can do, said once.

  `Reaction` lists it, with the guard under which it is done and with the answer: nothing, a load
  that fails, a cartridge switched on that asks for its stored image, a skip that is dropped, a
  frame that is played, and the requests that are no frames. `take_reaction` says that there is
  nothing else, so what holds of each reaction holds of each request.

  `begun?` is the console from which a request plays a frame, if it plays one; `take_begun` gives
  the answer and the console after it. `steps` is the history that a sequence of requests leaves.
-/
import Nes.Proofs.Console.StoredImage

namespace Nes

/-- The buttons held, and whether the frame is drawn, if a frame is asked for. -/
def Turn.frame? (turn : Turn) : Option ((UInt8 × UInt8) × Bool) :=
  match turn.request with
  | .frame buttons => some (buttons, true)
  | .skip buttons => some (buttons, false)
  | .reset | .shutdown | .insert _ | .storage _ => none

namespace Console

/-- The console that a frame starts from, with the board's notes from getting there: switched on,
    started over or as it is. A console that waits, has stopped or cannot load has none. -/
def ready? (console : Console) (files : Files) : Option (Journal × Console) :=
  match console.phase with
  | .powerOn =>
    match console.chosen files with
    | .ok cartridge => if cartridge.battery then none else some (console.powerOn cartridge)
    | .error _ => none
  | .reset => some console.pressReset
  | .running => some (#[], console)
  | .awaitStorage | .halted => none

/-- The console that a request plays a frame from, if it plays one. -/
def begun? (console : Console) (turn : Turn) : Option Console :=
  match turn.frame?, console.ready? turn.files with
  | some (_, drawn), some (_, start) =>
    if drawn || start.skipped < skipLimit then some start else none
  | _, _ => none

/-- The frame that a request plays, if it plays one, when it has ended. -/
def emulated? (console : Console) (turn : Turn) : Option Scan :=
  match turn.frame?, console.begun? turn with
  | some (buttons, drawn), some start =>
    start.cartridge.map fun cartridge =>
      (opening start.cpu start.hardware cartridge buttons drawn).frame
  | _, _ => none

/-- Counts a frame, drawn or not, and plays it. -/
def playCounted (start : Console) (buttons : UInt8 × UInt8) (drawn : Bool) : Response × Console :=
  { start with skipped := if drawn then 0 else start.skipped + 1 }.play buttons drawn

/-- The history of a sequence of requests: each with the console that it found. -/
def steps (console : Console) : List Turn → List (Console × Turn)
  | [] => []
  | turn :: turns => (console, turn) :: steps (console.take turn).2 turns

theorem length_steps (console : Console) (turns : List Turn) :
    (console.steps turns).length = turns.length := by
  induction turns generalizing console with
  | nil => rfl
  | cons turn turns ih => exact congrArg (· + 1) (ih (console.take turn).2)

/-! ## All that a request can do -/

/-- What a console does on a request: the answer, and the console after it. -/
inductive Reaction (console : Console) (turn : Turn) : Except LoadError Response × Console → Prop
  | halted (on : console.phase = .halted) : Reaction console turn (.ok {}, console)
  | waits {frame : (UInt8 × UInt8) × Bool} (asked : turn.frame? = some frame)
      (on : console.phase = .awaitStorage) : Reaction console turn (.ok {}, console)
  | fails {frame : (UInt8 × UInt8) × Bool} {error : LoadError} (asked : turn.frame? = some frame)
      (on : console.phase = .powerOn) (load : console.chosen turn.files = .error error) :
      Reaction console turn (.error error, console)
  | loads {frame : (UInt8 × UInt8) × Bool} {cartridge : Cartridge}
      (asked : turn.frame? = some frame) (on : console.phase = .powerOn)
      (load : console.chosen turn.files = .ok cartridge) (battery : cartridge.battery = true) :
      Reaction console turn
        (.ok { storage := [.load cartridge.image.key saveSize]
               journal := (console.powerOn cartridge).1 },
          (console.powerOn cartridge).2)
  | drops {buttons : UInt8 × UInt8} {journal : Journal} {start : Console}
      (asked : turn.frame? = some (buttons, false))
      (ready : console.ready? turn.files = some (journal, start))
      (full : skipLimit ≤ start.skipped) : Reaction console turn (.ok { journal }, start)
  | plays {buttons : UInt8 × UInt8} {drawn : Bool} {journal : Journal} {start : Console}
      (asked : turn.frame? = some (buttons, drawn))
      (ready : console.ready? turn.files = some (journal, start))
      (due : (drawn || start.skipped < skipLimit) = true) :
      Reaction console turn
        (.ok { (start.playCounted buttons drawn).1 with
               journal := journal ++ (start.playCounted buttons drawn).1.journal },
          (start.playCounted buttons drawn).2)
  | presses (asked : turn.request = .reset) (on : console.phase ≠ .halted) :
      Reaction console turn
        (.ok {},
          { console with phase := if console.phase = .running then .reset else console.phase })
  | stops (asked : turn.request = .shutdown) (on : console.phase ≠ .halted) :
      Reaction console turn (.ok console.shutDown.1, console.shutDown.2)
  | chooses {source : Source} (asked : turn.request = .insert source)
      (on : console.phase ≠ .halted) :
      Reaction console turn (.ok {}, { console with source := some source, phase := .powerOn })
  | accepts {bytes : Bytes} (asked : turn.request = .storage bytes)
      (on : console.phase ≠ .halted) :
      Reaction console turn (.ok {}, console.acceptStorage bytes)

theorem advance_due {start : Console} {drawn : Bool}
    (due : (drawn || start.skipped < skipLimit) = true) (buttons : UInt8 × UInt8) :
    start.advance buttons drawn = start.playCounted buttons drawn := by
  unfold advance playCounted
  cases drawn with
  | true => rfl
  | false =>
    have hskipped : ¬ skipLimit ≤ start.skipped := by simpa using due
    rw [if_neg (by decide), if_neg hskipped]
    rfl

theorem advance_full {start : Console} (full : skipLimit ≤ start.skipped)
    (buttons : UInt8 × UInt8) : start.advance buttons false = ({}, start) := by
  unfold advance
  rw [if_neg (by decide), if_pos full]

theorem ready_cases {console start : Console} {files : Files} {journal : Journal}
    (ready : console.ready? files = some (journal, start)) :
    (∃ cartridge, console.phase = .powerOn ∧ console.chosen files = .ok cartridge ∧
        cartridge.battery = false ∧ console.powerOn cartridge = (journal, start)) ∨
      (console.phase = .reset ∧ console.pressReset = (journal, start)) ∨
      (console.phase = .running ∧ journal = #[] ∧ start = console) := by
  unfold ready? at ready
  split at ready
  · next on =>
    split at ready
    · next cartridge load =>
      split at ready
      · cases ready
      · next battery =>
        exact .inl ⟨cartridge, on, load, by simpa using battery, by simpa using ready⟩
    · cases ready
  · next on => exact .inr (.inl ⟨on, by simpa using ready⟩)
  · next on =>
    cases ready
    exact .inr (.inr ⟨on, rfl, rfl⟩)
  · cases ready
  · cases ready

/-- A frame that has a console to start from goes on from there. -/
theorem runFrame_ready {console start : Console} {files : Files} {journal : Journal}
    (ready : console.ready? files = some (journal, start)) (buttons : UInt8 × UInt8)
    (drawn : Bool) :
    console.runFrame files buttons drawn =
      (.ok { (start.advance buttons drawn).1 with
             journal := journal ++ (start.advance buttons drawn).1.journal },
        (start.advance buttons drawn).2) := by
  obtain ⟨cartridge, on, load, battery, hon⟩ | ⟨on, hreset⟩ | ⟨on, rfl, rfl⟩ := ready_cases ready
  · rw [runFrame_powerOn on load]
    unfold firstFrame
    rw [hon, if_neg (by simp [battery])]
  · unfold runFrame
    rw [on]
    dsimp only
    rw [hreset]
  · unfold runFrame
    rw [on]
    simp

theorem take_asked {console : Console} {turn : Turn} {buttons : UInt8 × UInt8} {drawn : Bool}
    (on : console.phase ≠ .halted) (asked : turn.frame? = some (buttons, drawn)) :
    console.take turn = console.runFrame turn.files buttons drawn := by
  have hhalted : ¬ console.isHalted = true := by simpa [isHalted] using on
  unfold take execute
  rw [if_neg hhalted]
  unfold Turn.frame? at asked
  cases hrequest : turn.request with
  | frame | skip =>
    rw [hrequest] at asked
    cases asked
    rfl
  | reset | shutdown | insert | storage =>
    rw [hrequest] at asked
    cases asked

theorem ready_on {console : Console} {files : Files} {result : Journal × Console}
    (ready : console.ready? files = some result) : console.phase ≠ .halted := by
  intro on
  unfold ready? at ready
  rw [on] at ready
  cases ready

/-- It is played, or dropped. -/
theorem reaction_ready {console start : Console} {turn : Turn} {buttons : UInt8 × UInt8}
    {drawn : Bool} {journal : Journal} (asked : turn.frame? = some (buttons, drawn))
    (ready : console.ready? turn.files = some (journal, start)) :
    Reaction console turn
      (.ok { (start.advance buttons drawn).1 with
             journal := journal ++ (start.advance buttons drawn).1.journal },
        (start.advance buttons drawn).2) := by
  cases due : drawn || decide (start.skipped < skipLimit) with
  | true =>
    rw [advance_due due]
    exact .plays asked ready due
  | false =>
    obtain ⟨rfl, hskipped⟩ : drawn = false ∧ ¬ start.skipped < skipLimit := by simpa using due
    have full : skipLimit ≤ start.skipped := Nat.le_of_not_lt hskipped
    rw [advance_full full]
    simpa using Reaction.drops asked ready full

theorem runFrame_reaction {console : Console} {turn : Turn} {buttons : UInt8 × UInt8}
    {drawn : Bool} (asked : turn.frame? = some (buttons, drawn)) :
    Reaction console turn (console.runFrame turn.files buttons drawn) := by
  cases on : console.phase with
  | powerOn =>
    cases load : console.chosen turn.files with
    | error error =>
      rw [runFrame_error on load]
      exact .fails asked on load
    | ok cartridge =>
      cases battery : cartridge.battery with
      | true =>
        rw [runFrame_powerOn on load]
        unfold firstFrame
        rw [if_pos battery]
        exact .loads asked on load battery
      | false =>
        have ready : console.ready? turn.files = some (console.powerOn cartridge) := by
          unfold ready?
          rw [on, load]
          simp [battery]
        rw [runFrame_ready ready]
        exact reaction_ready asked ready
  | reset =>
    have ready : console.ready? turn.files = some console.pressReset := by
      unfold ready?
      rw [on]
    rw [runFrame_ready ready]
    exact reaction_ready asked ready
  | running =>
    have ready : console.ready? turn.files = some (#[], console) := by
      unfold ready?
      rw [on]
    rw [runFrame_ready ready]
    exact reaction_ready asked ready
  | awaitStorage =>
    unfold runFrame
    rw [on]
    exact .waits asked on
  | halted =>
    unfold runFrame
    rw [on]
    exact .halted on

/-- Every request meets one of the reactions. -/
theorem take_reaction (console : Console) (turn : Turn) :
    Reaction console turn (console.take turn) := by
  unfold take execute
  split
  · next hhalted => exact .halted (by simpa [isHalted] using hhalted)
  · next hhalted =>
    have on : console.phase ≠ .halted := by simpa [isHalted] using hhalted
    cases hrequest : turn.request with
    | frame buttons => exact runFrame_reaction (by unfold Turn.frame?; rw [hrequest])
    | skip buttons => exact runFrame_reaction (by unfold Turn.frame?; rw [hrequest])
    | reset => exact .presses hrequest on
    | shutdown => exact .stops hrequest on
    | insert source => exact .chooses hrequest on
    | storage bytes => exact .accepts hrequest on

theorem take_ready {console start : Console} {turn : Turn} {buttons : UInt8 × UInt8}
    {drawn : Bool} {journal : Journal} (asked : turn.frame? = some (buttons, drawn))
    (ready : console.ready? turn.files = some (journal, start)) :
    console.take turn =
      (.ok { (start.advance buttons drawn).1 with
             journal := journal ++ (start.advance buttons drawn).1.journal },
        (start.advance buttons drawn).2) := by
  rw [take_asked (ready_on ready) asked, runFrame_ready ready]

/-- The frame that switches a cartridge with a battery on. -/
theorem take_loads {console : Console} {turn : Turn} {frame : (UInt8 × UInt8) × Bool}
    {cartridge : Cartridge} (asked : turn.frame? = some frame) (on : console.phase = .powerOn)
    (load : console.chosen turn.files = .ok cartridge) (battery : cartridge.battery = true) :
    console.take turn =
      (.ok { storage := [.load cartridge.image.key saveSize]
             journal := (console.powerOn cartridge).1 },
        (console.powerOn cartridge).2) := by
  obtain ⟨buttons, drawn⟩ := frame
  rw [take_asked (by rw [on]; decide) asked, runFrame_powerOn on load]
  unfold firstFrame
  rw [if_pos battery]

/-- The stored image is taken over, and the cartridge runs with it. -/
theorem take_accepts {console : Console} {cartridge : Cartridge}
    (on : console.phase = .awaitStorage) (hc : console.cartridge = some cartridge) (files : Files)
    (bytes : Bytes) :
    console.take ⟨files, .storage bytes⟩ =
      (.ok {}, { console with
        schedule := .fresh cartridge.save.writes
        cartridge := some { cartridge with save := cartridge.save.load bytes }
        phase := .running }) := by
  have hhalted : ¬ console.isHalted = true := by simp [isHalted, on]
  unfold take execute
  rw [if_neg hhalted]
  dsimp only
  unfold acceptStorage
  rw [if_pos on, hc]
  rfl

/-- A reaction leaves no choice. -/
theorem Reaction.eq_take {console : Console} {turn : Turn}
    {result : Except LoadError Response × Console} (h : Reaction console turn result) :
    result = console.take turn := by
  cases h with
  | halted on => rw [take_halted on]
  | waits asked on =>
    rw [take_asked (by rw [on]; decide) asked]
    unfold runFrame
    rw [on]
  | fails asked on load => rw [take_asked (by rw [on]; decide) asked, runFrame_error on load]
  | loads asked on load battery => rw [take_loads asked on load battery]
  | drops asked ready full =>
    rw [take_ready asked ready, advance_full full]
    simp
  | plays asked ready due => rw [take_ready asked ready, advance_due due]
  | presses asked on | stops asked on | chooses asked on | accepts asked on =>
    have hhalted : ¬ console.isHalted = true := by simpa [isHalted] using on
    unfold take execute
    rw [if_neg hhalted, asked]

/-! ## The console that a frame starts from -/

/-- The reset button leaves everything of the cartridge but the board and its IRQ line. -/
theorem startedOver_cartridge (cpu : Cpu) (hardware : Hardware) (cartridge : Cartridge) :
    ∃ board irq, (startedOver cpu hardware cartridge).bus.cartridge =
      { cartridge with board, irq } := by
  obtain ⟨board, irq, hboard⟩ := System.initBoard_cartridge (.plugged hardware cartridge) .soft
  have hreset := System.reset_cartridge cpu (System.plugged hardware cartridge).pressReset .soft
  exact ⟨board, irq, hreset.trans hboard⟩

/-- What the reset button leaves of a console with a cartridge. -/
theorem pressReset_plugged {console : Console} {cartridge : Cartridge}
    (hc : console.cartridge = some cartridge) :
    ∃ board irq, console.pressReset.2.cartridge = some { cartridge with board, irq } := by
  obtain ⟨board, irq, hcartridge⟩ :=
    startedOver_cartridge console.cpu console.hardware cartridge
  refine ⟨board, irq, ?_⟩
  rw [pressReset_some hc]
  exact congrArg some hcartridge

/-- A frame starts from a console that runs. -/
theorem ready_phase {console start : Console} {files : Files} {journal : Journal}
    (ready : console.ready? files = some (journal, start)) : start.phase = .running := by
  obtain ⟨cartridge, _, _, battery, hon⟩ | ⟨_, hreset⟩ | ⟨on, _, rfl⟩ := ready_cases ready
  · have hphase := (powerOn_plugged console cartridge).2
    rw [hon, battery] at hphase
    exact hphase
  · cases hc : console.cartridge with
    | none =>
      rw [pressReset_none hc] at hreset
      cases hreset
      rfl
    | some cartridge =>
      rw [pressReset_some hc] at hreset
      cases hreset
      rfl
  · exact on

/-- It has a cartridge, too. -/
theorem ready_running {console start : Console} {files : Files} {journal : Journal}
    (plugged : PluggedIn console) (ready : console.ready? files = some (journal, start)) :
    start.phase = .running ∧ start.cartridge.isSome = true := by
  refine ⟨ready_phase ready, ?_⟩
  obtain ⟨cartridge, _, _, _, hon⟩ | ⟨on, hreset⟩ | ⟨on, _, rfl⟩ := ready_cases ready
  · obtain ⟨⟨board, irq, hcartridge⟩, _⟩ := powerOn_plugged console cartridge
    rw [hon] at hcartridge
    rw [hcartridge]
    rfl
  · obtain ⟨cartridge, hc⟩ := Option.isSome_iff_exists.mp (plugged (.inr (.inr on)))
    rw [pressReset_some hc] at hreset
    cases hreset
    rfl
  · exact plugged (.inr (.inl on))

/-- Only a console that runs has so many undrawn frames behind it that a skip is dropped. -/
theorem ready_full {console start : Console} {files : Files} {journal : Journal}
    (plugged : PluggedIn console) (ready : console.ready? files = some (journal, start))
    (full : skipLimit ≤ start.skipped) :
    console.phase = .running ∧ journal = #[] ∧ start = console := by
  obtain ⟨cartridge, _, _, _, hon⟩ | ⟨on, hreset⟩ | hrunning := ready_cases ready
  · have hskipped : start.skipped = 0 := by
      rw [powerOn_eq] at hon
      cases hon
      rfl
    rw [hskipped] at full
    cases full
  · obtain ⟨cartridge, hc⟩ := Option.isSome_iff_exists.mp (plugged (.inr (.inr on)))
    have hskipped : start.skipped = 0 := by
      rw [pressReset_some hc] at hreset
      cases hreset
      rfl
    rw [hskipped] at full
    cases full
  · exact hrunning

theorem begun_eq_some {console start : Console} {turn : Turn} :
    console.begun? turn = some start ↔
      ∃ buttons drawn journal, turn.frame? = some (buttons, drawn) ∧
        console.ready? turn.files = some (journal, start) ∧
        (drawn || start.skipped < skipLimit) = true := by
  unfold begun?
  constructor
  · intro h
    split at h
    · next buttons drawn journal start' asked ready =>
      split at h
      · next due =>
        cases h
        exact ⟨buttons, drawn, journal, asked, ready, due⟩
      · cases h
    · cases h
  · rintro ⟨buttons, drawn, journal, asked, ready, due⟩
    rw [asked, ready]
    exact if_pos due

/-! ## A frame that is played -/

theorem emulate_phase (console : Console) (buttons : UInt8 × UInt8) (drawn : Bool) :
    (console.emulate buttons drawn).2.phase = console.phase := by
  cases hc : console.cartridge with
  | none =>
    rw [emulate_none hc]
    rfl
  | some cartridge =>
    rw [emulate_some hc]
    -- the frame stays closed
    generalize (opening console.cpu console.hardware cartridge buttons drawn).frame = scan
    rfl

theorem playCounted_phase (start : Console) (buttons : UInt8 × UInt8) (drawn : Bool) :
    (start.playCounted buttons drawn).2.phase = start.phase := by
  unfold playCounted play
  dsimp only
  obtain ⟨schedule, hend⟩ := endFrame_snd
    ({ start with skipped := if drawn then 0 else start.skipped + 1 }.emulate buttons drawn).2
  rw [hend]
  exact emulate_phase _ buttons drawn

theorem save_eq {console : Console} {cartridge : Cartridge}
    (h : console.battery? = some cartridge) :
    console.save = ([.save cartridge.image.key cartridge.save.bytes],
      { console with schedule := .fresh cartridge.save.writes }) := by
  unfold save
  rw [h]

/-- What the end of a frame hands out: nothing, or the save RAM of a cartridge with a battery. -/
theorem endFrame_eq (console : Console) :
    ∃ storage schedule, console.endFrame = (storage, { console with schedule }) ∧
      (storage = [] ∨ ∃ cartridge, console.battery? = some cartridge ∧
        storage = [.save cartridge.image.key cartridge.save.bytes]) := by
  cases battery : console.battery? with
  | none => exact ⟨[], console.schedule, endFrame_none battery, .inl rfl⟩
  | some cartridge =>
    unfold endFrame
    rw [battery]
    dsimp only
    split
    · let due : Console :=
        { console with schedule := (console.schedule.endFrame cartridge.save.writes).2 }
      have hsave := @save_eq due cartridge battery
      exact ⟨_, _, hsave, .inr ⟨cartridge, rfl, rfl⟩⟩
    · exact ⟨_, _, rfl, .inl rfl⟩

theorem battery_of_some {console : Console} {cartridge plugged : Cartridge}
    (hc : console.cartridge = some cartridge) (h : console.battery? = some plugged) :
    plugged = cartridge ∧ cartridge.battery = true := by
  refine ⟨battery_some hc h, ?_⟩
  by_contra hbattery
  rw [(battery_none hc).mpr (by simpa using hbattery)] at h
  cases h

/-- A frame that is played from a console with a cartridge, and then its end. -/
theorem playCounted_some {start : Console} {cartridge : Cartridge}
    (hc : start.cartridge = some cartridge) (buttons : UInt8 × UInt8) (drawn : Bool) {scan : Scan}
    (frame : (opening start.cpu start.hardware cartridge buttons drawn).frame = scan) :
    let counted : Console := { start with skipped := if drawn then 0 else start.skipped + 1 }
    let ended := (counted.install scan.machine).endFrame
    start.playCounted buttons drawn = ({ outcome scan with storage := ended.1 }, ended.2) := by
  intro counted ended
  have hemulate := @emulate_some counted cartridge hc buttons drawn
  rw [frame] at hemulate
  unfold playCounted play
  rw [hemulate]

/-- What a frame gives that is played from a console with a cartridge, and what it leaves. -/
theorem playCounted_eq {start : Console} {cartridge : Cartridge}
    (hc : start.cartridge = some cartridge) (buttons : UInt8 × UInt8) (drawn : Bool) :
    ∃ storage schedule,
      start.playCounted buttons drawn =
        ({ outcome (opening start.cpu start.hardware cartridge buttons drawn).frame with storage },
          { start.install (opening start.cpu start.hardware cartridge buttons drawn).frame.machine
            with skipped := if drawn then 0 else start.skipped + 1, schedule }) ∧
      (storage = [] ∨ cartridge.battery = true ∧
        storage = [.save cartridge.image.key
          (opening start.cpu start.hardware cartridge
            buttons drawn).frame.machine.bus.cartridge.save.bytes]) := by
  have himage := (run_opening start.cpu start.hardware cartridge buttons drawn).image_eq.1
  -- the frame stays closed from here on
  generalize frame : (opening start.cpu start.hardware cartridge buttons drawn).frame = scan
    at himage ⊢
  let counted : Console := { start with skipped := if drawn then 0 else start.skipped + 1 }
  obtain ⟨storage, schedule, hend, hstorage⟩ := (counted.install scan.machine).endFrame_eq
  refine ⟨storage, schedule, ?_, ?_⟩
  · rw [playCounted_some hc buttons drawn frame, hend]
    rfl
  · obtain rfl | ⟨plugged, battery, rfl⟩ := hstorage
    · exact .inl rfl
    · obtain ⟨rfl, hbattery⟩ := battery_of_some rfl battery
      unfold Cartridge.battery at hbattery ⊢
      rw [himage] at hbattery
      rw [himage]
      exact .inr ⟨hbattery, rfl⟩

/-- What a request gives that plays a frame, and what it leaves. The console goes on from the
    frame's machine; what it hands out is nothing, or the save RAM of a cartridge with a
    battery. -/
theorem take_begun {console start : Console} {turn : Turn} (plugged : PluggedIn console)
    (begun : console.begun? turn = some start) :
    ∃ buttons drawn cartridge scan journal storage schedule,
      turn.frame? = some (buttons, drawn) ∧ start.cartridge = some cartridge ∧
      console.emulated? turn = some scan ∧
      scan = (opening start.cpu start.hardware cartridge buttons drawn).frame ∧
      console.take turn =
        (.ok { outcome scan with storage, journal },
          { start.install scan.machine with
            skipped := if drawn then 0 else start.skipped + 1, schedule }) ∧
      (storage = [] ∨ cartridge.battery = true ∧
        storage = [.save cartridge.image.key scan.machine.bus.cartridge.save.bytes]) := by
  obtain ⟨buttons, drawn, journal, asked, ready, due⟩ := begun_eq_some.mp begun
  obtain ⟨cartridge, hc⟩ := Option.isSome_iff_exists.mp (ready_running plugged ready).2
  obtain ⟨storage, schedule, hplay, hstorage⟩ := playCounted_eq hc buttons drawn
  have hscan : console.emulated? turn =
      some (opening start.cpu start.hardware cartridge buttons drawn).frame := by
    unfold emulated?
    rw [asked, begun]
    dsimp only
    rw [hc, Option.map_some]
  have htake : console.take turn =
      (.ok { (start.playCounted buttons drawn).1 with
             journal := journal ++ (start.playCounted buttons drawn).1.journal },
        (start.playCounted buttons drawn).2) := by
    rw [take_ready asked ready, advance_due due]
  rw [hplay] at htake
  -- the frame stays closed from here on
  generalize hframe : (opening start.cpu start.hardware cartridge buttons drawn).frame = scan at *
  exact ⟨buttons, drawn, cartridge, scan, _, storage, schedule, asked, hc, hscan, hframe.symm,
    htake, hstorage⟩

theorem isSome_emulated {console : Console} (plugged : PluggedIn console) (turn : Turn) :
    (console.emulated? turn).isSome = (console.begun? turn).isSome := by
  cases begun : console.begun? turn with
  | some start =>
    obtain ⟨_, _, _, scan, _, _, _, _, _, hscan, _⟩ := take_begun plugged begun
    rw [hscan]
    rfl
  | none =>
    unfold emulated?
    rw [begun]
    split
    · next hnone => cases hnone
    · rfl

end Console
end Nes
