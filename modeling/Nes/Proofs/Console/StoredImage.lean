/-
  Save RAM is handed out for storage when the schedule says so and when the console stops. What
  is stored for a cartridge may be older than the console: until the stored image has come, the
  save RAM is as it was built, and storing it would lose what the host has.

  `imageCome` follows a sequence of requests and tells whether the stored image of the cartridge
  that is plugged in has come. A console that waits for the image hands nothing out, neither
  after a frame nor when it stops. But choosing a cartridge ends the wait while the old one is
  still plugged in: `save_before_image_iff` says that save RAM goes out before its image exactly
  when the console is then shut down, and that it goes out as it was built.
-/
import Mathlib.Data.List.Induction
import Nes.Proofs.Console.Requests
import Nes.Proofs.Image

namespace Nes

/-- The save RAM of a cartridge that was just built. -/
def Cartridge.builtSave (cartridge : Cartridge) : SaveRam :=
  (Cartridge.ofImage cartridge.image cartridge.pristine).save

/-! ## Reading leaves the cartridge alone -/

namespace System

theorem readIo_cartridge (system : System) (addr : UInt16) :
    (system.readIo addr).2.cartridge = system.cartridge := by
  unfold readIo
  dsimp only
  split
  · rfl
  · split
    · rfl
    · split <;> rfl

theorem access_cartridge (system : System) (addr : UInt16) :
    (system.access addr).2.cartridge = system.cartridge := by
  unfold access
  split
  · rfl
  · rfl
  · exact readIo_cartridge system addr
  · rfl
  · rfl
  · rfl

theorem read_cartridge (system : System) (addr : UInt16) :
    (system.read addr).2.cartridge = system.cartridge := access_cartridge system addr

theorem reset_cartridge (cpu : Cpu) (system : System) (kind : ResetKind) :
    (Machine.reset ⟨cpu, system⟩ kind).bus.cartridge = system.cartridge := by
  have hlo := read_cartridge system resetVector
  have hhi := read_cartridge (system.read resetVector).2 (resetVector + 1)
  exact hhi.trans hlo

/-- Starting the board over leaves everything of the cartridge but the board and its IRQ line. -/
theorem initBoard_cartridge (system : System) (kind : ResetKind) :
    ∃ board irq, (system.initBoard kind).cartridge = { system.cartridge with board, irq } :=
  ⟨_, _, rfl⟩

end System

namespace Console

/-! ## Without a battery -/

theorem battery_none {console : Console} {cartridge : Cartridge}
    (hc : console.cartridge = some cartridge) :
    console.battery? = none ↔ cartridge.battery = false := by
  unfold battery?
  rw [hc, Option.filter_some]
  cases cartridge.battery with
  | false => simp
  | true => simp

theorem battery_some {console : Console} {cartridge plugged : Cartridge}
    (hc : console.cartridge = some cartridge) (h : console.battery? = some plugged) :
    plugged = cartridge := by
  unfold battery? at h
  rw [hc, Option.filter_some] at h
  split at h
  · exact (Option.some.inj h).symm
  · cases h

/-- A system whose cartridge has no battery never gets one. -/
theorem battery_install {console : Console} {cartridge : Cartridge}
    {machine : Machine System} (hc : console.cartridge = some cartridge)
    (run : System.Run (.plugged console.hardware cartridge) machine.bus)
    (h : console.battery? = none) : (console.install machine).battery? = none := by
  have himage : machine.bus.cartridge.image = cartridge.image := run.image_eq.1
  have hplugged : (console.install machine).cartridge = some machine.bus.cartridge := rfl
  rw [battery_none hc] at h
  rw [battery_none hplugged]
  unfold Cartridge.battery at h ⊢
  rw [himage]
  exact h

theorem battery_pressReset {console : Console} (h : console.battery? = none) :
    console.pressReset.2.battery? = none := by
  cases hc : console.cartridge with
  | none =>
    rw [pressReset_none hc]
    exact h
  | some cartridge =>
    have hinstall := battery_install hc (run_startedOver console.cpu console.hardware cartridge) h
    rw [pressReset_some hc]
    unfold battery? at hinstall ⊢
    exact hinstall

theorem battery_emulate {console : Console} (h : console.battery? = none)
    (buttons : UInt8 × UInt8) (drawn : Bool) :
    (console.emulate buttons drawn).2.battery? = none := by
  cases hc : console.cartridge with
  | none =>
    rw [emulate_none hc]
    exact h
  | some cartridge =>
    rw [emulate_some hc]
    exact battery_install hc (run_opening console.cpu console.hardware cartridge buttons drawn) h

theorem endFrame_none {console : Console} (h : console.battery? = none) :
    console.endFrame = ([], console) := by
  unfold endFrame
  rw [h]

theorem save_none {console : Console} (h : console.battery? = none) :
    console.save = ([], console) := by
  unfold save
  rw [h]

theorem play_none {console : Console} (h : console.battery? = none) (buttons : UInt8 × UInt8)
    (drawn : Bool) :
    (console.play buttons drawn).1.storage = [] ∧
      (console.play buttons drawn).2.battery? = none := by
  have hemulate := battery_emulate h buttons drawn
  unfold play
  dsimp only
  rw [endFrame_none hemulate]
  exact ⟨rfl, hemulate⟩

/-- A console whose cartridge has no battery hands nothing out at the end of a frame. -/
theorem advance_none {console : Console} (h : console.battery? = none) (buttons : UInt8 × UInt8)
    (drawn : Bool) :
    (console.advance buttons drawn).1.storage = [] ∧
      (console.advance buttons drawn).2.battery? = none := by
  have hskipped (skipped : Nat) : ({ console with skipped } : Console).battery? = none := h
  unfold advance
  split
  · exact play_none (hskipped 0) buttons drawn
  · split
    · exact ⟨rfl, h⟩
    · exact play_none (hskipped (console.skipped + 1)) buttons drawn

/-! ## Whether the stored image has come -/

/-- Whether the stored image of the cartridge that is plugged in has come after a request,
    `come` telling whether it had before. A cartridge that is plugged in has to wait for its own
    image, and only a console that waits takes one. -/
def imageCome (console : Console) (come : Bool) (turn : Turn) : Bool :=
  match turn.request with
  | .frame _ | .skip _ => come && !(console.phase = .powerOn && (console.chosen turn.files).isOk)
  | .storage _ => come || console.phase = .awaitStorage
  | .reset | .shutdown | .insert _ => come

/-- A new console after a sequence of requests, and whether the stored image of the cartridge
    that is plugged in has come. -/
def followed (registry : Registry) (turns : List Turn) : Console × Bool :=
  turns.foldl (fun (console, come) turn => ((console.take turn).2, console.imageCome come turn))
    ({ registry }, false)

/-- Whether the stored image of the cartridge that is plugged in has come, after a sequence of
    requests to a new console. -/
def imageHasCome (registry : Registry) (turns : List Turn) : Bool := (followed registry turns).2

theorem followed_concat (registry : Registry) (turns : List Turn) (turn : Turn) :
    followed registry (turns ++ [turn]) =
      (((followed registry turns).1.take turn).2,
        (followed registry turns).1.imageCome (followed registry turns).2 turn) := by
  unfold followed
  rw [List.foldl_append]
  rfl

theorem followed_fst (registry : Registry) (turns : List Turn) :
    (followed registry turns).1 = ({ registry } : Console).after turns := by
  induction turns using List.reverseRecOn with
  | nil => rfl
  | append_singleton turns turn ih => rw [followed_concat, after_concat, ih]

/-- As long as the stored image has not come, a console that is on has no battery to care for,
    and any save RAM with a battery is as it was built. -/
structure Waits (console : Console) : Prop where
  noBattery : console.phase = .running ∨ console.phase = .reset → console.battery? = none
  asBuilt : ∀ cartridge, console.battery? = some cartridge → cartridge.save = cartridge.builtSave

theorem Waits.of_none {console : Console} (h : console.battery? = none) : Waits console := by
  refine ⟨fun _ => h, fun cartridge hc => ?_⟩
  rw [h] at hc
  cases hc

theorem load_builtSave {registry : Registry} {bytes : Bytes} {id : Option UInt16}
    {cartridge : Cartridge} (h : Cartridge.load registry bytes id = .ok cartridge) :
    cartridge.save = cartridge.builtSave := by
  unfold Cartridge.load at h
  obtain ⟨image, _, h⟩ := ok_of_bind h
  obtain ⟨board, _, h⟩ := ok_of_bind h
  cases h
  rfl

theorem chosen_builtSave {console : Console} {files : Files} {cartridge : Cartridge}
    (h : console.chosen files = .ok cartridge) : cartridge.save = cartridge.builtSave := by
  obtain ⟨source, load⟩ := chosen_ok rfl h
  unfold Source.load at load
  split at load
  · split at load
    · exact load_builtSave load
    · cases load
  · exact load_builtSave load
  · exact load_builtSave load

theorem switchedOn_cartridge (cpu : Cpu) (cartridge : Cartridge) :
    ∃ board irq, (switchedOn cpu cartridge).bus.cartridge = { cartridge with board, irq } := by
  obtain ⟨board, irq, hboard⟩ := System.initBoard_cartridge (.plugged {} cartridge) .power
  have hreset := System.reset_cartridge cpu ((System.plugged {} cartridge).initBoard .power) .power
  exact ⟨board, irq, hreset.trans hboard⟩

theorem powerOn_plugged (console : Console) (cartridge : Cartridge) :
    (∃ board irq, (console.powerOn cartridge).2.cartridge =
      some { cartridge with board, irq }) ∧
    (console.powerOn cartridge).2.phase =
      if cartridge.battery then .awaitStorage else .running := by
  obtain ⟨board, irq, hcartridge⟩ := switchedOn_cartridge console.cpu cartridge
  rw [powerOn_eq]
  dsimp only [start, install]
  rw [hcartridge]
  exact ⟨⟨board, irq, rfl⟩, rfl⟩

/-- A cartridge that was just plugged in has no battery, or waits for its stored image. -/
theorem waits_powerOn {console : Console} {files : Files} {cartridge : Cartridge}
    (load : console.chosen files = .ok cartridge) :
    Waits (console.powerOn cartridge).2 ∧
      (cartridge.battery = false → (console.powerOn cartridge).2.battery? = none) := by
  obtain ⟨⟨board, irq, hcartridge⟩, hphase⟩ := powerOn_plugged console cartridge
  have hnone : cartridge.battery = false → (console.powerOn cartridge).2.battery? = none :=
    (battery_none hcartridge).mpr
  refine ⟨?_, hnone⟩
  cases hb : cartridge.battery with
  | false => exact .of_none (hnone hb)
  | true =>
    rw [hb, if_pos rfl] at hphase
    refine ⟨fun on => ?_, fun plugged hplugged => ?_⟩
    · rw [hphase] at on
      simp at on
    · have hsave := chosen_builtSave load
      rw [battery_some hcartridge hplugged]
      exact hsave

/-! ## One request -/

/-- What an answer hands to the host's storage. -/
def storageOf : Except LoadError Response → List StorageRequest
  | .ok response => response.storage
  | .error _ => []

/-- An answer that hands no save RAM out, and a console that still waits for the stored image. -/
def Quiet (result : Except LoadError Response × Console) : Prop :=
  Waits result.2 ∧ ∀ key data, .save key data ∉ storageOf result.1

theorem quiet_idle {console : Console} (h : Waits console) : Quiet (.ok {}, console) :=
  ⟨h, fun _ _ => List.not_mem_nil⟩

theorem quiet_advance {console : Console} (h : console.battery? = none) (buttons : UInt8 × UInt8)
    (drawn : Bool) (journal : Journal) :
    Quiet (.ok { (console.advance buttons drawn).1 with journal },
      (console.advance buttons drawn).2) := by
  obtain ⟨hstorage, hbattery⟩ := advance_none h buttons drawn
  refine ⟨.of_none hbattery, fun key data => ?_⟩
  show .save key data ∉ (console.advance buttons drawn).1.storage
  rw [hstorage]
  exact List.not_mem_nil

/-- The frame that plugs a cartridge in. -/
theorem quiet_firstFrame {console : Console} {files : Files} {cartridge : Cartridge}
    (on : console.phase = .powerOn) (load : console.chosen files = .ok cartridge)
    (buttons : UInt8 × UInt8) (drawn : Bool) :
    Quiet (console.runFrame files buttons drawn) := by
  obtain ⟨hwaits, hnone⟩ := waits_powerOn load
  rw [runFrame_powerOn on load]
  unfold firstFrame
  split
  · refine ⟨hwaits, fun key data => ?_⟩
    simp [storageOf]
  · next hb => exact quiet_advance (hnone (by simpa using hb)) buttons drawn _

/-- As long as the stored image has not come, no frame hands anything out. -/
theorem quiet_runFrame {console : Console} (h : Waits console) (files : Files)
    (buttons : UInt8 × UInt8) (drawn : Bool) :
    Quiet (console.runFrame files buttons drawn) := by
  cases on : console.phase with
  | powerOn =>
    cases load : console.chosen files with
    | ok cartridge => exact quiet_firstFrame on load buttons drawn
    | error =>
      rw [runFrame_error on load]
      exact ⟨h, fun _ _ => List.not_mem_nil⟩
  | reset =>
    unfold runFrame
    rw [on]
    exact quiet_advance (battery_pressReset (h.noBattery (.inr on))) buttons drawn _
  | running =>
    unfold runFrame
    rw [on]
    exact quiet_advance (h.noBattery (.inl on)) buttons drawn _
  | awaitStorage | halted =>
    unfold runFrame
    rw [on]
    exact quiet_idle h

theorem waits_shutDown {console : Console} (h : Waits console) : Waits console.shutDown.2 := by
  obtain ⟨schedule, hschedule⟩ := shutDown_snd console
  rw [hschedule]
  refine ⟨fun on => ?_, h.asBuilt⟩
  simp at on

theorem save_some {console : Console} {cartridge : Cartridge}
    (h : console.battery? = some cartridge) :
    console.save.1 = [.save cartridge.image.key cartridge.save.bytes] := by
  unfold save
  rw [h]

/-- When the console stops before the stored image has come, save RAM goes out exactly if
    another cartridge was chosen meanwhile. -/
theorem save_mem_shutDown {console : Console} (h : Waits console) (on : console.phase ≠ .halted)
    (key : String) (data : Bytes) :
    .save key data ∈ console.shutDown.1.storage ↔
      console.phase = .powerOn ∧ ∃ cartridge, console.battery? = some cartridge ∧
        key = cartridge.image.key ∧ data = cartridge.builtSave.bytes := by
  unfold shutDown
  dsimp only
  cases hphase : console.phase with
  | awaitStorage => simp
  | running =>
    rw [if_neg (by decide), save_none (h.noBattery (.inl hphase))]
    simp
  | reset =>
    rw [if_neg (by decide), save_none (h.noBattery (.inr hphase))]
    simp
  | powerOn =>
    rw [if_neg (by decide)]
    cases hb : console.battery? with
    | none =>
      rw [save_none hb]
      simp
    | some cartridge =>
      rw [save_some hb, h.asBuilt cartridge hb]
      simp
  | halted => exact absurd hphase on

theorem take_halted {console : Console} (h : console.phase = .halted) (turn : Turn) :
    console.take turn = (.ok {}, console) := by
  unfold take execute
  rw [if_pos (by simp [isHalted, h])]

theorem imageCome_halted {console : Console} (h : console.phase = .halted) (come : Bool)
    (turn : Turn) : console.imageCome come turn = come := by
  unfold imageCome
  cases turn.request with
  | frame | skip | storage => simp [h]
  | reset | shutdown | insert => rfl

/-- A frame keeps the console waiting, or makes it wait for a new cartridge's image. -/
theorem waits_runFrame {console : Console} {come : Bool} (h : come = false → Waits console)
    {files : Files}
    (waits : (come && !(console.phase = .powerOn && (console.chosen files).isOk)) = false)
    (buttons : UInt8 × UInt8) (drawn : Bool) :
    Waits (console.runFrame files buttons drawn).2 := by
  cases come with
  | false => exact (quiet_runFrame (h rfl) files buttons drawn).1
  | true =>
    have hfirst : console.phase = .powerOn ∧ (console.chosen files).isOk = true := by
      simpa using waits
    cases load : console.chosen files with
    | ok cartridge => exact (quiet_firstFrame hfirst.1 load buttons drawn).1
    | error =>
      rw [load] at hfirst
      cases hfirst.2

/-- A request keeps the console waiting, unless it brings the stored image. -/
theorem waits_take {console : Console} {come : Bool} (h : come = false → Waits console)
    (on : console.phase ≠ .halted) (turn : Turn)
    (waits : console.imageCome come turn = false) : Waits (console.take turn).2 := by
  have hhalted : ¬ console.isHalted = true := by simpa [isHalted] using on
  unfold imageCome at waits
  unfold take execute
  rw [if_neg hhalted]
  cases hrequest : turn.request with
  | frame buttons =>
    rw [hrequest] at waits
    exact waits_runFrame h waits buttons true
  | skip buttons =>
    rw [hrequest] at waits
    exact waits_runFrame h waits buttons false
  | reset =>
    rw [hrequest] at waits
    refine ⟨fun hphase => (h waits).noBattery ?_, (h waits).asBuilt⟩
    by_cases hrunning : console.phase = .running
    · exact .inl hrunning
    · dsimp only at hphase
      rwa [if_neg hrunning] at hphase
  | shutdown =>
    rw [hrequest] at waits
    exact waits_shutDown (h waits)
  | insert source =>
    rw [hrequest] at waits
    refine ⟨fun hphase => ?_, (h waits).asBuilt⟩
    simp at hphase
  | storage bytes =>
    rw [hrequest] at waits
    have hwaits : come = false ∧ console.phase ≠ .awaitStorage := by simpa using waits
    dsimp only
    rw [acceptStorage_of_ne hwaits.2]
    exact h hwaits.1

/-! ## Sequences of requests -/

theorem waits_followed (registry : Registry) (turns : List Turn)
    (h : imageHasCome registry turns = false) : Waits (followed registry turns).1 := by
  unfold imageHasCome at h
  induction turns using List.reverseRecOn with
  | nil => exact .of_none rfl
  | append_singleton turns turn ih =>
    rw [followed_concat] at h ⊢
    by_cases hhalted : (followed registry turns).1.phase = .halted
    · rw [imageCome_halted hhalted] at h
      rw [take_halted hhalted]
      exact ih h
    · exact waits_take ih hhalted turn h

/-! ## What is handed out -/

/-- Whatever save RAM a result hands out is that of the cartridge that is plugged in. -/
def HandsOutPlugged (storage : List StorageRequest) (console : Console) : Prop :=
  ∀ key data, .save key data ∈ storage → ∃ cartridge, console.battery? = some cartridge ∧
    key = cartridge.image.key ∧ data = cartridge.save.bytes

theorem handsOutPlugged_nil (console : Console) : HandsOutPlugged [] console :=
  fun _ _ hmem => absurd hmem List.not_mem_nil

theorem handsOutPlugged_save (console : Console) :
    HandsOutPlugged console.save.1 console.save.2 := by
  cases hb : console.battery? with
  | none =>
    rw [save_none hb]
    exact handsOutPlugged_nil console
  | some cartridge =>
    intro key data hmem
    rw [save_some hb, List.mem_singleton] at hmem
    cases hmem
    refine ⟨cartridge, ?_, rfl, rfl⟩
    unfold save
    rw [hb]
    exact hb

theorem handsOutPlugged_endFrame (console : Console) :
    HandsOutPlugged console.endFrame.1 console.endFrame.2 := by
  unfold endFrame
  split
  · dsimp only
    split
    · exact handsOutPlugged_save _
    · exact handsOutPlugged_nil _
  · exact handsOutPlugged_nil _

theorem handsOutPlugged_advance (console : Console) (buttons : UInt8 × UInt8) (drawn : Bool) :
    HandsOutPlugged (console.advance buttons drawn).1.storage
      (console.advance buttons drawn).2 := by
  unfold advance
  split
  · exact handsOutPlugged_endFrame _
  · split
    · exact handsOutPlugged_nil _
    · exact handsOutPlugged_endFrame _

theorem handsOutPlugged_runFrame (console : Console) (files : Files) (buttons : UInt8 × UInt8)
    (drawn : Bool) :
    HandsOutPlugged (storageOf (console.runFrame files buttons drawn).1)
      (console.runFrame files buttons drawn).2 := by
  unfold runFrame
  split
  · split
    · exact handsOutPlugged_nil _
    · dsimp only
      split
      · intro key data hmem
        simp [storageOf] at hmem
      · exact handsOutPlugged_advance _ buttons drawn
  · exact handsOutPlugged_advance _ buttons drawn
  · exact handsOutPlugged_advance _ buttons drawn
  · exact handsOutPlugged_nil _
  · exact handsOutPlugged_nil _

theorem handsOutPlugged_shutDown (console : Console) :
    HandsOutPlugged console.shutDown.1.storage console.shutDown.2 := by
  unfold shutDown
  dsimp only
  split
  · exact handsOutPlugged_nil _
  · exact handsOutPlugged_save console

theorem handsOutPlugged_take (console : Console) (turn : Turn) :
    HandsOutPlugged (storageOf (console.take turn).1) (console.take turn).2 := by
  unfold take execute
  split
  · exact handsOutPlugged_nil _
  · split
    · exact handsOutPlugged_runFrame console turn.files _ true
    · exact handsOutPlugged_runFrame console turn.files _ false
    · exact handsOutPlugged_nil _
    · exact handsOutPlugged_shutDown console
    · exact handsOutPlugged_nil _
    · exact handsOutPlugged_nil _

/-- A console that waits hands save RAM out only if it is shut down after another cartridge was
    chosen. -/
theorem save_mem_take {console : Console} (h : Waits console) (turn : Turn) (key : String)
    (data : Bytes) :
    .save key data ∈ storageOf (console.take turn).1 ↔
      turn.request = .shutdown ∧ console.phase = .powerOn ∧
        ∃ cartridge, console.battery? = some cartridge ∧ key = cartridge.image.key ∧
          data = cartridge.builtSave.bytes := by
  by_cases hphase : console.phase = .halted
  · rw [take_halted hphase, hphase]
    simp [storageOf]
  have hhalted : ¬ console.isHalted = true := by simpa [isHalted] using hphase
  unfold take execute
  rw [if_neg hhalted]
  cases hrequest : turn.request with
  | frame buttons =>
    have hquiet := (quiet_runFrame h turn.files buttons true).2 key data
    simp [hquiet]
  | skip buttons =>
    have hquiet := (quiet_runFrame h turn.files buttons false).2 key data
    simp [hquiet]
  | shutdown =>
    rw [eq_self, true_and]
    exact save_mem_shutDown h hphase key data
  | reset | insert | storage => simp [storageOf]

/-- Save RAM goes out before the stored image of its cartridge has come exactly when the console
    is shut down after another cartridge was chosen and before a frame plugged it in. The host
    then gets the save RAM of a cartridge that was just built, under the key of the one that is
    still plugged in. -/
theorem save_before_image_iff (registry : Registry) (turns : List Turn) (turn : Turn)
    (key : String) (data : Bytes) :
    let console := ({ registry } : Console).after turns
    HandsOutPlugged (storageOf (console.take turn).1) (console.take turn).2 ∧
      (imageHasCome registry turns = false ∧ .save key data ∈ storageOf (console.take turn).1 ↔
        imageHasCome registry turns = false ∧ turn.request = .shutdown ∧
          console.phase = .powerOn ∧
          ∃ cartridge, console.battery? = some cartridge ∧ key = cartridge.image.key ∧
            data = cartridge.builtSave.bytes) := by
  intro console
  refine ⟨handsOutPlugged_take console turn, and_congr_right fun hcome => ?_⟩
  have hwaits := waits_followed registry turns hcome
  rw [followed_fst] at hwaits
  exact save_mem_take hwaits turn key data

/-! ## A way there -/

theorem take_insert {console : Console} (on : console.phase ≠ .halted) (files : Files)
    (source : Source) :
    console.take ⟨files, .insert source⟩ =
      (.ok {}, { console with source := some source, phase := .powerOn }) := by
  unfold take execute
  rw [if_neg (by simpa [isHalted] using on)]

theorem take_shutdown {console : Console} (on : console.phase = .powerOn) (files : Files) :
    storageOf (console.take ⟨files, .shutdown⟩).1 = console.save.1 := by
  unfold take execute
  rw [if_neg (by simp [isHalted, on])]
  dsimp only
  unfold storageOf shutDown
  rw [if_neg (by simp [on])]

theorem take_frame {console : Console} (on : console.phase ≠ .halted) (files : Files)
    (buttons : UInt8 × UInt8) :
    console.take ⟨files, .frame buttons⟩ = console.runFrame files buttons true := by
  unfold take execute
  rw [if_neg (by simpa [isHalted] using on)]

/-- The first frame of a cartridge with a battery switches it on, and only asks for its stored
    image. -/
theorem after_first_frame {registry : Registry} {bytes : Bytes} {cartridge : Cartridge}
    (load : Cartridge.load registry bytes none = .ok cartridge)
    (battery : cartridge.battery = true) (files : Files) (buttons : UInt8 × UInt8) :
    ({ registry } : Console).after [⟨files, .insert (.image bytes)⟩, ⟨files, .frame buttons⟩] =
      (({ registry, source := some (.image bytes) } : Console).powerOn cartridge).2 := by
  let new : Console := { registry }
  let chosen : Console := { registry, source := some (.image bytes) }
  have hnew : new.phase ≠ .halted := fun h => nomatch h
  have hchosen : chosen.phase = .powerOn := rfl
  have hload : chosen.chosen files = .ok cartridge := load
  have hchoose : (new.take ⟨files, .insert (.image bytes)⟩).2 = chosen := by
    rw [take_insert hnew]
  have hframe : (chosen.take ⟨files, .frame buttons⟩).2 = (chosen.powerOn cartridge).2 := by
    rw [take_frame (by rw [hchosen]; decide), runFrame_powerOn hchosen hload]
    unfold firstFrame
    rw [if_pos battery]
  rw [after_cons, after_cons, after_nil, hchoose, hframe]

/-- Plug in a cartridge with a battery, choose a cartridge again while the console waits for the
    stored image, and shut down: save RAM goes out as it was built. -/
theorem save_of_choosing_twice {registry : Registry} {bytes : Bytes} {cartridge : Cartridge}
    (load : Cartridge.load registry bytes none = .ok cartridge)
    (battery : cartridge.battery = true) (files : Files) (buttons : UInt8 × UInt8)
    (source : Source) :
    let turns : List Turn :=
      [⟨files, .insert (.image bytes)⟩, ⟨files, .frame buttons⟩, ⟨files, .insert source⟩]
    imageHasCome registry turns = false ∧
      storageOf ((({ registry } : Console).after turns).take ⟨files, .shutdown⟩).1 =
        [.save cartridge.image.key cartridge.builtSave.bytes] := by
  intro turns
  refine ⟨rfl, ?_⟩
  let new : Console := { registry }
  let chosen : Console := { registry, source := some (.image bytes) }
  have hload : chosen.chosen files = .ok cartridge := load
  obtain ⟨⟨board, irq, hcartridge⟩, hphase⟩ := powerOn_plugged chosen cartridge
  have hon : (chosen.powerOn cartridge).2.phase ≠ .halted := by
    rw [hphase, if_pos battery]
    decide
  have hafter : new.after turns =
      { (chosen.powerOn cartridge).2 with source := some source, phase := .powerOn } := by
    have hfirst := after_first_frame load battery files buttons
    have hlast := new.after_concat
      [⟨files, .insert (.image bytes)⟩, ⟨files, .frame buttons⟩] ⟨files, .insert source⟩
    rw [hfirst, take_insert hon] at hlast
    exact hlast
  have hbattery : (new.after turns).battery? = some { cartridge with board, irq } := by
    rw [hafter]
    unfold battery?
    rw [hcartridge, Option.filter_some]
    exact if_pos battery
  rw [take_shutdown (by rw [hafter]), save_some hbattery, chosen_builtSave hload]

/-- Sixteen bytes that load: NROM with a battery, and no ROM at all. -/
def batteryHeader : Bytes := #[0x4E, 0x45, 0x53, 0x1A, 0, 0, 2, 0, 0, 0, 0, 0, 0, 0, 0, 0]

theorem save_before_image_of_header :
    ∃ turns key data, imageHasCome {} turns = false ∧
      .save key data ∈ storageOf ((({} : Console).after turns).take
        ⟨fun _ => .ok #[], .shutdown⟩).1 := by
  have hload : ∃ cartridge, Cartridge.load {} batteryHeader none = .ok cartridge ∧
      cartridge.battery = true := ⟨_, rfl, rfl⟩
  obtain ⟨cartridge, load, battery⟩ := hload
  obtain ⟨hcome, hsave⟩ := save_of_choosing_twice load battery (fun _ => .ok #[]) (0, 0)
    (.image batteryHeader)
  refine ⟨_, cartridge.image.key, cartridge.builtSave.bytes, hcome, ?_⟩
  rw [hsave]
  exact List.mem_singleton_self _

end Console
end Nes
