/-
  The console over a sequence of requests.

  `Console.after` is the console that a sequence leads to and `Console.answers` what it gives on
  the way. A property of the system that holds when a cartridge is switched on, and that every
  step keeps, holds after every sequence of requests (`holds_after`): a request is made of
  `powerOn`, `pressReset`, `emulate` and `acceptStorage`, and of changes to what surrounds the
  system.
-/
import Nes.Console.Basic
import Nes.Proofs.Console.Steps

namespace Nes

/-- A request, and the files that can be read when it is made. -/
structure Turn where
  files : Files
  request : Request

namespace Console

/-- The answer to a request, and the console after it. -/
def take (console : Console) (turn : Turn) : Except LoadError Response × Console :=
  console.execute turn.files turn.request

/-- The console after a sequence of requests. -/
def after (console : Console) (turns : List Turn) : Console :=
  turns.foldl (fun console turn => (console.take turn).2) console

/-- The answers to a sequence of requests. -/
def answers (console : Console) : List Turn → List (Except LoadError Response)
  | [] => []
  | turn :: turns => (console.take turn).1 :: answers (console.take turn).2 turns

theorem after_nil (console : Console) : console.after [] = console := rfl

theorem after_cons (console : Console) (turn : Turn) (turns : List Turn) :
    console.after (turn :: turns) = (console.take turn).2.after turns := rfl

theorem after_append (console : Console) (turns turns' : List Turn) :
    console.after (turns ++ turns') = (console.after turns).after turns' := by
  unfold after
  rw [List.foldl_append]

theorem after_concat (console : Console) (turns : List Turn) (turn : Turn) :
    console.after (turns ++ [turn]) = ((console.after turns).take turn).2 := by
  rw [after_append]
  rfl

theorem answers_append (console : Console) (turns turns' : List Turn) :
    console.answers (turns ++ turns') =
      console.answers turns ++ (console.after turns).answers turns' := by
  induction turns generalizing console with
  | nil => rfl
  | cons turn turns ih => exact congrArg _ (ih (console.take turn).2)

/-- What every request keeps, a sequence of requests keeps. -/
theorem after_keeps {P : Console → Prop}
    (step : ∀ (console : Console) (turn : Turn), P console → P (console.take turn).2)
    {console : Console} (h : P console) (turns : List Turn) : P (console.after turns) := by
  induction turns generalizing console with
  | nil => exact h
  | cons turn turns ih => exact ih (step console turn h)

end Console

/-! ## Invariants of the system -/

namespace System

/-- A cartridge plugged in, and no notes of the board so far. -/
def plugged (hardware : Hardware) (cartridge : Cartridge) : System := { hardware, cartridge }

/-- A property that holds when a cartridge is switched on, that every step keeps, and for which
    neither the board's notes nor a stored image matter. -/
structure Invariant (registry : Registry) (P : System → Prop) : Prop where
  powerOn : ∀ {source : Source} {files : Files} {cartridge : Cartridge},
    source.load files registry = .ok cartridge → P ((plugged {} cartridge).initBoard .power)
  step : ∀ {a b : System}, Step a b → P a → P b
  forget : ∀ {system : System}, P system → P (plugged system.hardware system.cartridge)
  load : ∀ {hardware : Hardware} {cartridge : Cartridge} (bytes : Bytes),
    P (plugged hardware cartridge) →
      P (plugged hardware { cartridge with save := cartridge.save.load bytes })

end System

namespace Console

/-- The registry is the given one, and the system, if a cartridge is plugged in, has the
    property. -/
structure Holds (registry : Registry) (P : System → Prop) (console : Console) : Prop where
  registry_eq : console.registry = registry
  system : ∀ cartridge, console.cartridge = some cartridge →
    P (.plugged console.hardware cartridge)

/-- The CPU and what it reaches when a cartridge has been switched on. -/
def switchedOn (cpu : Cpu) (cartridge : Cartridge) : Machine System :=
  Machine.reset ⟨cpu, (System.plugged {} cartridge).initBoard .power⟩ .power

/-- The CPU and what it reaches after the reset button. -/
def startedOver (cpu : Cpu) (hardware : Hardware) (cartridge : Cartridge) : Machine System :=
  Machine.reset ⟨cpu, (System.plugged hardware cartridge).pressReset⟩ .soft

/-- A frame that has not begun. -/
def opening (cpu : Cpu) (hardware : Hardware) (cartridge : Cartridge) (buttons : UInt8 × UInt8)
    (drawn : Bool) : Scan :=
  { machine := ⟨cpu, (System.plugged hardware cartridge).mapIo (·.setButtons buttons)⟩
    picture := if drawn then some .blank else none }

/-- What a frame gives. -/
def outcome (scan : Scan) : Response :=
  { screen := scan.picture, sound := some scan.sound, journal := scan.machine.bus.journal }

/-- The console when `machine` has taken the place of its CPU and of all that the CPU reaches. -/
def install (console : Console) (machine : Machine System) : Console :=
  { console with
    cpu := machine.cpu
    hardware := machine.bus.hardware
    cartridge := some machine.bus.cartridge }

/-- The console when `machine` was switched on. -/
def start (console : Console) (machine : Machine System) : Console :=
  { console.install machine with
    skipped := 0
    schedule := .fresh machine.bus.cartridge.save.writes
    phase := if machine.bus.cartridge.battery then .awaitStorage else .running }

/-- The console when `machine` was started over. -/
def restart (console : Console) (machine : Machine System) : Console :=
  { console.install machine with phase := .running, skipped := 0 }

theorem powerOn_eq (console : Console) (cartridge : Cartridge) :
    console.powerOn cartridge =
      ((switchedOn console.cpu cartridge).bus.journal,
        console.start (switchedOn console.cpu cartridge)) := by
  unfold powerOn start install switchedOn System.plugged
  rfl

theorem pressReset_some {console : Console} {cartridge : Cartridge}
    (h : console.cartridge = some cartridge) :
    console.pressReset =
      ((startedOver console.cpu console.hardware cartridge).bus.journal,
        console.restart (startedOver console.cpu console.hardware cartridge)) := by
  obtain ⟨cpu, hardware, cartridge', registry, source, phase, skipped, schedule⟩ := console
  cases h
  simp only [pressReset, restart, install, startedOver, System.pressReset, System.plugged]

theorem emulate_some {console : Console} {cartridge : Cartridge}
    (h : console.cartridge = some cartridge) (buttons : UInt8 × UInt8) (drawn : Bool) :
    console.emulate buttons drawn =
      (outcome (opening console.cpu console.hardware cartridge buttons drawn).frame,
        console.install
          (opening console.cpu console.hardware cartridge buttons drawn).frame.machine) := by
  obtain ⟨cpu, hardware, cartridge', registry, source, phase, skipped, schedule⟩ := console
  cases h
  simp only [emulate, outcome, install, opening, System.plugged]

/-- Without a cartridge there is nothing to start over. -/
theorem pressReset_none {console : Console} (h : console.cartridge = none) :
    console.pressReset = (#[], { console with phase := .running }) := by
  obtain ⟨cpu, hardware, cartridge, registry, source, phase, skipped, schedule⟩ := console
  cases h
  rfl

/-- A console without a cartridge, with the buttons that are held. -/
def holding (console : Console) (buttons : UInt8 × UInt8) : Console :=
  { console with
    hardware := { console.hardware with io := console.hardware.io.setButtons buttons } }

/-- Without a cartridge there is nothing to emulate. -/
theorem emulate_none {console : Console} (h : console.cartridge = none) (buttons : UInt8 × UInt8)
    (drawn : Bool) :
    console.emulate buttons drawn =
      ({ screen := if drawn then some .blank else none, sound := some #[] },
        console.holding buttons) := by
  obtain ⟨cpu, hardware, cartridge, registry, source, phase, skipped, schedule⟩ := console
  cases h
  rfl

theorem endFrame_snd (console : Console) :
    ∃ schedule, console.endFrame.2 = { console with schedule } := by
  unfold endFrame
  split
  · dsimp only
    split
    · unfold save
      split
      · exact ⟨_, rfl⟩
      · exact ⟨_, rfl⟩
    · exact ⟨_, rfl⟩
  · exact ⟨_, rfl⟩

theorem shutDown_snd (console : Console) :
    ∃ schedule, console.shutDown.2 = { console with schedule, phase := .halted } := by
  unfold shutDown
  dsimp only
  split
  · exact ⟨_, rfl⟩
  · unfold save
    split
    · exact ⟨_, rfl⟩
    · exact ⟨_, rfl⟩

/-- An image that was not asked for changes nothing. -/
theorem acceptStorage_of_ne {console : Console} (on : console.phase ≠ .awaitStorage)
    (bytes : Bytes) : console.acceptStorage bytes = console := by
  unfold acceptStorage
  rw [if_neg on]

/-- A console that gets the image that it asked for runs, with or without a cartridge. -/
theorem acceptStorage_phase (console : Console) (bytes : Bytes) :
    (console.acceptStorage bytes).phase =
      if console.phase = .awaitStorage then .running else console.phase := by
  unfold acceptStorage
  split
  · split <;> rfl
  · rfl

theorem chosen_ok {console : Console} {registry : Registry} {files : Files}
    {cartridge : Cartridge} (hregistry : console.registry = registry)
    (h : console.chosen files = .ok cartridge) :
    ∃ source : Source, source.load files registry = .ok cartridge := by
  unfold chosen at h
  split at h
  · next source _ =>
    rw [hregistry] at h
    exact ⟨source, h⟩
  · cases h

/-- What the frame gives that switches a cartridge on, when switching on gives `result`. -/
def firstFrame (cartridge : Cartridge) (result : Journal × Console) (buttons : UInt8 × UInt8)
    (drawn : Bool) : Except LoadError Response × Console :=
  if cartridge.battery then
    (.ok { storage := [.load cartridge.image.key saveSize], journal := result.1 }, result.2)
  else
    let (response, console) := result.2.advance buttons drawn
    (.ok { response with journal := result.1 ++ response.journal }, console)

theorem runFrame_powerOn {console : Console} {files : Files} {cartridge : Cartridge}
    (on : console.phase = .powerOn) (load : console.chosen files = .ok cartridge)
    (buttons : UInt8 × UInt8) (drawn : Bool) :
    console.runFrame files buttons drawn =
      firstFrame cartridge (console.powerOn cartridge) buttons drawn := by
  unfold runFrame
  split
  · split
    · next h =>
      rw [load] at h
      cases h
    · next h =>
      rw [load] at h
      cases h
      -- what switching on gives stays closed
      generalize console.powerOn cartridge = result
      rfl
  all_goals
    next h =>
      rw [on] at h
      cases h

theorem runFrame_error {console : Console} {files : Files} {error : LoadError}
    (on : console.phase = .powerOn) (load : console.chosen files = .error error)
    (buttons : UInt8 × UInt8) (drawn : Bool) :
    console.runFrame files buttons drawn = (.error error, console) := by
  unfold runFrame
  rw [on, load]

/-- Switching on, once the board has installed its first banks, is a run of the system. -/
theorem run_switchedOn (cpu : Cpu) (cartridge : Cartridge) :
    System.Run ((System.plugged {} cartridge).initBoard .power)
      (switchedOn cpu cartridge).bus := by
  have hreset := Machine.run_reset ⟨cpu, (System.plugged {} cartridge).initBoard .power⟩ .power
  exact System.run_of_accesses hreset

/-- The reset button is a run of the system. -/
theorem run_startedOver (cpu : Cpu) (hardware : Hardware) (cartridge : Cartridge) :
    System.Run (.plugged hardware cartridge) (startedOver cpu hardware cartridge).bus := by
  have hreset := Machine.run_reset ⟨cpu, (System.plugged hardware cartridge).pressReset⟩ .soft
  exact (System.run_pressReset _).trans (System.run_of_accesses hreset)

/-- A frame is a run of the system. -/
theorem run_opening (cpu : Cpu) (hardware : Hardware) (cartridge : Cartridge)
    (buttons : UInt8 × UInt8) (drawn : Bool) :
    System.Run (.plugged hardware cartridge)
      (opening cpu hardware cartridge buttons drawn).frame.machine.bus := by
  have hbuttons : System.Run (.plugged hardware cartridge) _ :=
    .one (.io _ (·.setButtons buttons))
  exact hbuttons.trans (Scan.run_frame (opening cpu hardware cartridge buttons drawn))

/-! ## A request, part by part -/

section
variable {registry : Registry} {P : System → Prop}

theorem Holds.congr {console console' : Console} (h : Holds registry P console)
    (hregistry : console'.registry = console.registry)
    (hhardware : console'.hardware = console.hardware)
    (hcartridge : console'.cartridge = console.cartridge) : Holds registry P console' := by
  refine ⟨hregistry.trans h.registry_eq, ?_⟩
  rw [hhardware, hcartridge]
  exact h.system

variable (inv : System.Invariant registry P)
include inv

theorem holds_install {console : Console} (h : Holds registry P console)
    {machine : Machine System} (hbus : P machine.bus) :
    Holds registry P (console.install machine) := by
  refine ⟨h.registry_eq, fun cartridge hc => ?_⟩
  cases hc
  exact inv.forget hbus

theorem holds_powerOn {console : Console} {source : Source} {files : Files}
    {cartridge : Cartridge} (h : Holds registry P console)
    (load : source.load files registry = .ok cartridge) :
    Holds registry P (console.powerOn cartridge).2 := by
  have hrun := run_switchedOn console.cpu cartridge
  have hbus := hrun.keeps inv.step (inv.powerOn load)
  rw [powerOn_eq]
  exact (holds_install inv h hbus).congr rfl rfl rfl

theorem holds_pressReset {console : Console} (h : Holds registry P console) :
    Holds registry P console.pressReset.2 := by
  cases hc : console.cartridge with
  | none =>
    rw [pressReset_none hc]
    exact h.congr rfl rfl rfl
  | some cartridge =>
    have hrun := run_startedOver console.cpu console.hardware cartridge
    rw [pressReset_some hc]
    exact (holds_install inv h (hrun.keeps inv.step (h.system cartridge hc))).congr rfl rfl rfl

theorem holds_emulate {console : Console} (h : Holds registry P console)
    (buttons : UInt8 × UInt8) (drawn : Bool) :
    Holds registry P (console.emulate buttons drawn).2 := by
  cases hc : console.cartridge with
  | none =>
    rw [emulate_none hc]
    exact ⟨h.registry_eq, fun cartridge hc' => nomatch hc.symm.trans hc'⟩
  | some cartridge =>
    have hrun := run_opening console.cpu console.hardware cartridge buttons drawn
    rw [emulate_some hc]
    exact holds_install inv h (hrun.keeps inv.step (h.system cartridge hc))

theorem holds_acceptStorage {console : Console} (h : Holds registry P console) (bytes : Bytes) :
    Holds registry P (console.acceptStorage bytes) := by
  unfold acceptStorage
  split
  · split
    · next cartridge hc =>
      refine ⟨h.registry_eq, fun cartridge' hc' => ?_⟩
      cases hc'
      exact inv.load bytes (h.system cartridge hc)
    · exact h.congr rfl rfl rfl
  · exact h

theorem holds_play {console : Console} (h : Holds registry P console) (buttons : UInt8 × UInt8)
    (drawn : Bool) : Holds registry P (console.play buttons drawn).2 := by
  obtain ⟨schedule, hschedule⟩ := endFrame_snd (console.emulate buttons drawn).2
  have hplay : (console.play buttons drawn).2 = (console.emulate buttons drawn).2.endFrame.2 := rfl
  rw [hplay, hschedule]
  exact (holds_emulate inv h buttons drawn).congr rfl rfl rfl

theorem holds_advance {console : Console} (h : Holds registry P console)
    (buttons : UInt8 × UInt8) (drawn : Bool) :
    Holds registry P (console.advance buttons drawn).2 := by
  have hskipped (skipped : Nat) : Holds registry P { console with skipped } :=
    h.congr rfl rfl rfl
  unfold advance
  split
  · exact holds_play inv (hskipped 0) buttons drawn
  · split
    · exact h
    · exact holds_play inv (hskipped (console.skipped + 1)) buttons drawn

theorem holds_runFrame {console : Console} (h : Holds registry P console) (files : Files)
    (buttons : UInt8 × UInt8) (drawn : Bool) :
    Holds registry P (console.runFrame files buttons drawn).2 := by
  unfold runFrame
  split
  · split
    · exact h
    · next cartridge load =>
      obtain ⟨source, load⟩ := chosen_ok h.registry_eq load
      have hon := holds_powerOn inv h load
      dsimp only
      split
      · exact hon
      · exact holds_advance inv hon buttons drawn
  · exact holds_advance inv (holds_pressReset inv h) buttons drawn
  · exact holds_advance inv h buttons drawn
  · exact h
  · exact h

theorem holds_take {console : Console} (h : Holds registry P console) (turn : Turn) :
    Holds registry P (console.take turn).2 := by
  unfold take execute
  split
  · exact h
  · split
    · exact holds_runFrame inv h turn.files _ true
    · exact holds_runFrame inv h turn.files _ false
    · exact h.congr rfl rfl rfl
    · obtain ⟨schedule, hschedule⟩ := shutDown_snd console
      dsimp only
      rw [hschedule]
      exact h.congr rfl rfl rfl
    · exact h.congr rfl rfl rfl
    · exact holds_acceptStorage inv h _

/-- An invariant of the system holds after every sequence of requests to a new console. -/
theorem holds_after (turns : List Turn) :
    Holds registry P (({ registry } : Console).after turns) := by
  have hnew : Holds registry P ({ registry } : Console) := by
    refine ⟨rfl, fun cartridge hc => ?_⟩
    cases hc
  exact after_keeps (P := Holds registry P) (fun _ turn h => holds_take inv h turn) hnew turns

end

theorem registry_after (registry : Registry) (turns : List Turn) :
    (({ registry } : Console).after turns).registry = registry := by
  have anything : System.Invariant registry fun _ => True :=
    ⟨fun _ => trivial, fun _ _ => trivial, fun _ => trivial, fun _ _ => trivial⟩
  exact (holds_after anything turns).registry_eq

/-! ## The cartridge stays plugged in -/

theorem isSome_pressReset {console : Console} (h : console.cartridge.isSome = true) :
    console.pressReset.2.cartridge.isSome = true := by
  obtain ⟨cartridge, hc⟩ := Option.isSome_iff_exists.mp h
  rw [pressReset_some hc]
  rfl

theorem isSome_advance {console : Console} (h : console.cartridge.isSome = true)
    (buttons : UInt8 × UInt8) (drawn : Bool) :
    (console.advance buttons drawn).2.cartridge.isSome = true := by
  have hplay {console' : Console} (h' : console'.cartridge.isSome = true) :
      (console'.play buttons drawn).2.cartridge.isSome = true := by
    obtain ⟨cartridge, hc⟩ := Option.isSome_iff_exists.mp h'
    obtain ⟨schedule, hschedule⟩ := endFrame_snd (console'.emulate buttons drawn).2
    have hsnd : (console'.play buttons drawn).2 =
        (console'.emulate buttons drawn).2.endFrame.2 := rfl
    rw [hsnd, hschedule, emulate_some hc]
    rfl
  have hskipped (skipped : Nat) :
      ({ console with skipped } : Console).cartridge.isSome = true := h
  unfold advance
  split
  · exact hplay (hskipped 0)
  · split
    · exact h
    · exact hplay (hskipped (console.skipped + 1))

/-- A console that waits for its stored image, runs or is to start over has a cartridge. -/
def PluggedIn (console : Console) : Prop :=
  console.phase = .awaitStorage ∨ console.phase = .running ∨ console.phase = .reset →
    console.cartridge.isSome = true

theorem pluggedIn_runFrame {console : Console} (h : PluggedIn console) (files : Files)
    (buttons : UInt8 × UInt8) (drawn : Bool) :
    PluggedIn (console.runFrame files buttons drawn).2 := by
  unfold runFrame
  split
  · split
    · exact h
    · next cartridge _ =>
      have hon : (console.powerOn cartridge).2.cartridge.isSome = true := by
        rw [powerOn_eq]
        rfl
      dsimp only
      split
      · exact fun _ => hon
      · exact fun _ => isSome_advance hon buttons drawn
  · next hphase =>
    exact fun _ => isSome_advance (isSome_pressReset (h (.inr (.inr hphase)))) buttons drawn
  · next hphase => exact fun _ => isSome_advance (h (.inr (.inl hphase))) buttons drawn
  · exact h
  · exact h

theorem pluggedIn_take {console : Console} (h : PluggedIn console) (turn : Turn) :
    PluggedIn (console.take turn).2 := by
  unfold take execute
  split
  · exact h
  · split
    · exact pluggedIn_runFrame h turn.files _ true
    · exact pluggedIn_runFrame h turn.files _ false
    · intro hphase
      dsimp only at hphase ⊢
      split at hphase
      · next hrunning => exact h (.inr (.inl hrunning))
      · exact h hphase
    · obtain ⟨schedule, hschedule⟩ := shutDown_snd console
      dsimp only
      rw [hschedule]
      intro hphase
      simp at hphase
    · intro hphase
      simp at hphase
    · unfold acceptStorage
      split
      · next hawait =>
        have hsome := h (.inl hawait)
        split
        · exact fun _ => rfl
        · next hnone =>
          rw [hnone] at hsome
          cases hsome
      · exact h

theorem pluggedIn_after (registry : Registry) (turns : List Turn) :
    PluggedIn (({ registry } : Console).after turns) := by
  have hnew : PluggedIn { registry } := by
    intro hphase
    simp at hphase
  exact after_keeps (P := PluggedIn) (fun _ turn h => pluggedIn_take h turn) hnew turns

end Console
end Nes
