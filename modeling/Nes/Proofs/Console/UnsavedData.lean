/-
  What becomes of save RAM that the host does not have yet.

  `lastStored` follows a sequence of requests and gives the last image of the plugged-in
  cartridge's save RAM that the host has: the stored image that it sent, or what it was handed
  out since. A cartridge is `Unsaved` while its save RAM holds something else.

  Choosing a cartridge leaves the old one where it is, and a shutdown still hands its save RAM
  out. But the frame that plugs the new one in hands nothing out: `discards_iff` says that this
  frame loses what was unsaved, and that no other request does.
-/
import Nes.Proofs.Console.IdleLoop
import Nes.Proofs.Console.Reactions

namespace Nes

/-- The save RAM among the things to be stored, if it is there. -/
def savedImage? (storage : List StorageRequest) : Option Bytes :=
  storage.findSome? fun
    | .save _ data => some data
    | .load _ _ => none

namespace Console

/-- Whether a request plugs a cartridge in. -/
def plugsIn (console : Console) (turn : Turn) : Bool :=
  turn.frame?.isSome && console.phase = .powerOn && (console.chosen turn.files).isOk

/-- Whether a request brings the stored image that the console waits for. -/
def accepts (console : Console) (turn : Turn) : Bool :=
  match turn.request with
  | .storage _ => console.phase = .awaitStorage
  | _ => false

/-- What the host has of the save RAM in the console after a request, if it had `stored` before.
    Of a cartridge that was just plugged in it has nothing yet. -/
def storedBy (console : Console) (stored : Option Bytes) (turn : Turn) : Option Bytes :=
  let (answer, after) := console.take turn
  if console.plugsIn turn then none
  else if console.accepts turn then after.battery?.map (·.save.bytes)
  else (savedImage? (storageOf answer)).or stored

/-- What the host has after a sequence of requests. -/
def storedAfter (console : Console) (stored : Option Bytes) : List Turn → Option Bytes
  | [] => stored
  | turn :: turns => storedAfter (console.take turn).2 (console.storedBy stored turn) turns

/-- The last image of the plugged-in cartridge's save RAM that the host has after a sequence of
    requests to a new console. -/
def lastStored (registry : Registry) (turns : List Turn) : Option Bytes :=
  storedAfter { registry } none turns

/-- The plugged-in cartridge has a battery, its stored image has come, and its save RAM differs
    from what the host has. -/
structure Unsaved (console : Console) (stored : Option Bytes) (cartridge : Cartridge) : Prop where
  plugged : console.battery? = some cartridge
  differs : ∃ image, stored = some image ∧ cartridge.save.bytes ≠ image

/-- A request replaces a cartridge with unsaved save RAM and does not hand it out. -/
def Discards (console : Console) (stored : Option Bytes) (turn : Turn) : Prop :=
  ∃ cartridge, console.Unsaved stored cartridge ∧ console.plugsIn turn = true ∧
    .save cartridge.image.key cartridge.save.bytes ∉ storageOf (console.take turn).1

/-- A history in which no cartridge is plugged in and the console is not shut down. -/
def Lingers (console : Console) (turns : List Turn) : Prop :=
  ∀ step ∈ console.steps turns, step.1.plugsIn step.2 = false ∧ step.2.request ≠ .shutdown

theorem storedAfter_append (console : Console) (stored : Option Bytes) (turns turns' : List Turn) :
    console.storedAfter stored (turns ++ turns') =
      (console.after turns).storedAfter (console.storedAfter stored turns) turns' := by
  induction turns generalizing console stored with
  | nil => rfl
  | cons turn turns ih => exact ih (console.take turn).2 (console.storedBy stored turn)

theorem storedBy_plugsIn {console : Console} {turn : Turn} (h : console.plugsIn turn = true)
    (stored : Option Bytes) : console.storedBy stored turn = none := by
  unfold storedBy
  dsimp only
  rw [if_pos h]

/-- The stored image that the console waited for is what the host has. -/
theorem storedBy_accepts {console : Console} {turn : Turn} (stays : console.plugsIn turn = false)
    (h : console.accepts turn = true) (stored : Option Bytes) :
    console.storedBy stored turn = (console.take turn).2.battery?.map (·.save.bytes) := by
  unfold storedBy
  dsimp only
  rw [stays, if_neg (by decide), if_pos h]

/-- A request that hands nothing out leaves the host with what it has. -/
theorem storedBy_still {console : Console} {turn : Turn} (stays : console.plugsIn turn = false)
    (h : console.accepts turn = false) (hstorage : storageOf (console.take turn).1 = [])
    (stored : Option Bytes) : console.storedBy stored turn = stored := by
  unfold storedBy
  dsimp only
  rw [stays, h, hstorage]
  rfl

/-! ## Plugging in -/

theorem plugsIn_iff {console : Console} {turn : Turn} :
    console.plugsIn turn = true ↔ ∃ frame cartridge, turn.frame? = some frame ∧
      console.phase = .powerOn ∧ console.chosen turn.files = .ok cartridge := by
  unfold plugsIn
  constructor
  · intro h
    obtain ⟨⟨hasked, on⟩, hload⟩ : (turn.frame?.isSome = true ∧ console.phase = .powerOn) ∧
        (console.chosen turn.files).isOk = true := by simpa using h
    obtain ⟨frame, asked⟩ := Option.isSome_iff_exists.mp hasked
    cases load : console.chosen turn.files with
    | ok cartridge => exact ⟨frame, cartridge, asked, on, rfl⟩
    | error =>
      rw [load] at hload
      cases hload
  · rintro ⟨frame, cartridge, asked, on, load⟩
    rw [asked, on, load]
    rfl

/-- The frame that plugs a cartridge in hands no save RAM out. -/
theorem save_not_mem_plugsIn {console : Console} {turn : Turn} (h : console.plugsIn turn = true)
    (key : String) (data : Bytes) : .save key data ∉ storageOf (console.take turn).1 := by
  obtain ⟨⟨buttons, drawn⟩, cartridge, asked, on, load⟩ := plugsIn_iff.mp h
  rw [take_asked (by rw [on]; decide) asked]
  exact (quiet_firstFrame on load buttons drawn).2 key data

/-! ## All other requests -/

/-- The cartridge stays plugged in, and nothing is handed out but its save RAM. -/
def Keeps (cartridge : Cartridge) (result : Except LoadError Response × Console) : Prop :=
  ∃ kept, result.2.battery? = some kept ∧ kept.image = cartridge.image ∧
    (storageOf result.1 = [] ∨
      storageOf result.1 = [.save cartridge.image.key kept.save.bytes])

theorem keeps_still {console : Console} {cartridge : Cartridge}
    {result : Except LoadError Response × Console} (plugged : console.battery? = some cartridge)
    (hcartridge : result.2.cartridge = console.cartridge) (hstorage : storageOf result.1 = []) :
    Keeps cartridge result := by
  refine ⟨cartridge, ?_, rfl, .inl hstorage⟩
  unfold battery? at plugged ⊢
  rw [hcartridge]
  exact plugged

theorem battery_eq_some {console : Console} {cartridge : Cartridge} :
    console.battery? = some cartridge ↔
      console.cartridge = some cartridge ∧ cartridge.battery = true := by
  unfold battery?
  exact Option.filter_eq_some_iff

theorem keeps_accepts {console : Console} {cartridge : Cartridge}
    (plugged : console.battery? = some cartridge) (bytes : Bytes) :
    Keeps cartridge (.ok {}, console.acceptStorage bytes) := by
  obtain ⟨hc, battery⟩ := battery_eq_some.mp plugged
  unfold acceptStorage
  split
  · rw [hc]
    exact ⟨{ cartridge with save := cartridge.save.load bytes },
      battery_eq_some.mpr ⟨rfl, battery⟩, rfl, .inl rfl⟩
  · exact keeps_still plugged rfl rfl

theorem keeps_stops {console : Console} {cartridge : Cartridge}
    (plugged : console.battery? = some cartridge) :
    Keeps cartridge (.ok console.shutDown.1, console.shutDown.2) := by
  unfold shutDown
  dsimp only
  split
  · exact keeps_still plugged rfl rfl
  · rw [save_eq plugged]
    exact ⟨cartridge, plugged, rfl, .inr rfl⟩

/-- A frame that starts from a console with the cartridge. -/
theorem keeps_begun {console start : Console} {turn : Turn} {cartridge old : Cartridge}
    (plugged : PluggedIn console) (begun : console.begun? turn = some start)
    (hc : start.cartridge = some old) (himage : old.image = cartridge.image)
    (battery : cartridge.battery = true) : Keeps cartridge (console.take turn) := by
  obtain ⟨buttons, drawn, cartridge', scan, journal, storage, schedule, _, hc', _, hframe, htake,
    hstorage⟩ := take_begun plugged begun
  cases hc.symm.trans hc'
  have hrun := (run_opening start.cpu start.hardware old buttons drawn).image_eq.1
  rw [← hframe] at hrun
  rw [htake]
  have hkept : scan.machine.bus.cartridge.image = cartridge.image := hrun.trans himage
  refine ⟨scan.machine.bus.cartridge, battery_eq_some.mpr ⟨rfl, ?_⟩, hkept, ?_⟩
  · unfold Cartridge.battery at battery ⊢
    rw [hkept]
    exact battery
  · obtain rfl | ⟨_, rfl⟩ := hstorage
    · exact .inl rfl
    · rw [himage]
      exact .inr rfl

/-- Whatever a request does but plug a cartridge in, the old one stays. -/
theorem keeps_take {console : Console} {cartridge : Cartridge} (plugged : PluggedIn console)
    (battery : console.battery? = some cartridge) {turn : Turn}
    (stays : console.plugsIn turn = false) : Keeps cartridge (console.take turn) := by
  obtain ⟨hc, hbattery⟩ := battery_eq_some.mp battery
  cases begun : console.begun? turn with
  | some start =>
    obtain ⟨buttons, drawn, journal, asked, ready, _⟩ := begun_eq_some.mp begun
    obtain ⟨chosen, on, load, _⟩ | ⟨_, hreset⟩ | ⟨_, _, rfl⟩ := ready_cases ready
    · rw [plugsIn_iff.mpr ⟨_, chosen, asked, on, load⟩] at stays
      cases stays
    · obtain ⟨board, irq, hstart⟩ := pressReset_plugged hc
      rw [hreset] at hstart
      exact keeps_begun plugged begun hstart rfl hbattery
    · exact keeps_begun plugged begun hc rfl hbattery
  | none =>
    have reaction := take_reaction console turn
    generalize console.take turn = result at reaction ⊢
    cases reaction with
    | halted | waits | fails | presses | chooses => exact keeps_still battery rfl rfl
    | loads asked on load =>
      rw [plugsIn_iff.mpr ⟨_, _, asked, on, load⟩] at stays
      cases stays
    | drops asked ready full =>
      obtain ⟨_, _, rfl⟩ := ready_full plugged ready full
      exact keeps_still battery rfl rfl
    | plays asked ready due =>
      rw [begun_eq_some.mpr ⟨_, _, _, asked, ready, due⟩] at begun
      cases begun
    | stops => exact keeps_stops battery
    | accepts => exact keeps_accepts battery _

/-! ## When the host is up to date -/

theorem savedImage_of_mem {storage : List StorageRequest} {key : String} {data : Bytes}
    (h : .save key data ∈ storage) :
    ∃ key' image, .save key' image ∈ storage ∧ savedImage? storage = some image := by
  have hsome : (savedImage? storage).isSome = true := by
    unfold savedImage?
    rw [List.isSome_findSome?, List.any_eq_true]
    exact ⟨_, h, rfl⟩
  obtain ⟨image, himage⟩ := Option.isSome_iff_exists.mp hsome
  obtain ⟨request, hmem, hrequest⟩ := List.exists_of_findSome?_eq_some himage
  cases request with
  | load => cases hrequest
  | save key' image' =>
    cases hrequest
    exact ⟨key', image, hmem, himage⟩

/-- When the stored image comes, or save RAM is handed out, nothing is unsaved. -/
theorem settled_take {console : Console} {turn : Turn}
    (h : console.accepts turn = true ∨ ∃ key data, .save key data ∈ storageOf (console.take turn).1)
    (stored : Option Bytes) (cartridge : Cartridge) :
    ¬ (console.take turn).2.Unsaved (console.storedBy stored turn) cartridge := by
  rintro ⟨plugged, image, himage, differs⟩
  cases accepts : console.accepts turn with
  | true =>
    have stays : console.plugsIn turn = false := by
      unfold Console.accepts at accepts
      unfold plugsIn Turn.frame?
      split at accepts
      · next hrequest =>
        rw [hrequest]
        rfl
      · cases accepts
    rw [storedBy_accepts stays accepts, plugged] at himage
    exact differs (Option.some.inj himage)
  | false =>
    obtain ⟨key, data, hmem⟩ := h.resolve_left (by rw [accepts]; decide)
    have stays : console.plugsIn turn = false := by
      cases plugs : console.plugsIn turn with
      | true => exact absurd hmem (save_not_mem_plugsIn plugs key data)
      | false => rfl
    obtain ⟨key', image', hmem', hsaved⟩ := savedImage_of_mem hmem
    obtain ⟨cartridge', plugged', _, hdata⟩ := handsOutPlugged_take console turn key' image' hmem'
    have hstored : console.storedBy stored turn = some image' := by
      unfold storedBy
      dsimp only
      rw [stays, accepts, hsaved]
      rfl
    rw [hstored] at himage
    cases himage
    cases plugged.symm.trans plugged'
    exact differs hdata.symm

/-! ## Once another cartridge is chosen -/

/-- Until the chosen cartridge is plugged in, nothing is done to the old one, and nothing is
    handed out but by a shutdown. -/
theorem take_lingers {console : Console} (on : console.phase = .powerOn) {turn : Turn}
    (stays : console.plugsIn turn = false) (goesOn : turn.request ≠ .shutdown) :
    (console.take turn).2.phase = .powerOn ∧
      (console.take turn).2.cartridge = console.cartridge ∧
      storageOf (console.take turn).1 = [] := by
  have reaction := take_reaction console turn
  generalize console.take turn = result at reaction ⊢
  cases reaction with
  | halted hphase | waits _ hphase =>
    rw [on] at hphase
    cases hphase
  | fails => exact ⟨on, rfl, rfl⟩
  | loads asked _ load =>
    rw [plugsIn_iff.mpr ⟨_, _, asked, on, load⟩] at stays
    cases stays
  | drops asked ready | plays asked ready =>
    obtain ⟨chosen, _, load, _⟩ | ⟨hphase, _⟩ | ⟨hphase, _⟩ := ready_cases ready
    · rw [plugsIn_iff.mpr ⟨_, chosen, asked, on, load⟩] at stays
      cases stays
    all_goals
      rw [on] at hphase
      cases hphase
  | presses =>
    refine ⟨?_, rfl, rfl⟩
    dsimp only
    rw [on]
    rfl
  | stops asked => exact absurd asked goesOn
  | chooses => exact ⟨rfl, rfl, rfl⟩
  | accepts =>
    rw [acceptStorage_of_ne (by rw [on]; decide)]
    exact ⟨on, rfl, rfl⟩

theorem storedBy_lingers {console : Console} (on : console.phase = .powerOn) {turn : Turn}
    (stays : console.plugsIn turn = false) (goesOn : turn.request ≠ .shutdown)
    (stored : Option Bytes) : console.storedBy stored turn = stored := by
  obtain ⟨_, _, hstorage⟩ := take_lingers on stays goesOn
  have hidle : console.accepts turn = false := by
    unfold accepts
    cases turn.request with
    | storage => simp [on]
    | frame | skip | reset | shutdown | insert => rfl
  exact storedBy_still stays hidle hstorage stored

/-- However many requests come in between, the old cartridge stays as it is, and the host gets
    nothing of it. -/
theorem lingers_after {console : Console} (on : console.phase = .powerOn) {turns : List Turn}
    (lingers : console.Lingers turns) (stored : Option Bytes) :
    (console.after turns).phase = .powerOn ∧
      (console.after turns).cartridge = console.cartridge ∧
      console.storedAfter stored turns = stored := by
  induction turns generalizing console with
  | nil => exact ⟨on, rfl, rfl⟩
  | cons turn turns ih =>
    obtain ⟨⟨stays, goesOn⟩, lingers⟩ := List.forall_mem_cons.mp lingers
    obtain ⟨hphase, hcartridge, _⟩ := take_lingers on stays goesOn
    obtain ⟨ihphase, ihcartridge, ihstored⟩ := ih hphase lingers
    refine ⟨ihphase, ihcartridge.trans hcartridge, ?_⟩
    unfold storedAfter
    rw [storedBy_lingers on stays goesOn]
    exact ihstored

/-! ## A program that leaves something unsaved -/

/-- Nothing is due at the end of a frame if the host had everything at its start. -/
theorem endFrame_fresh (count writes : UInt32) :
    ((SaveSchedule.fresh count).endFrame writes).1 = false := by
  unfold SaveSchedule.endFrame SaveSchedule.fresh
  dsimp only
  split
  · rfl
  · rfl

theorem playCounted_fresh {start : Console} {cartridge : Cartridge}
    (hc : start.cartridge = some cartridge) {count : UInt32}
    (fresh : start.schedule = .fresh count) (buttons : UInt8 × UInt8) (drawn : Bool) :
    (start.playCounted buttons drawn).1.storage = [] := by
  obtain ⟨scan, frame⟩ : ∃ scan,
    (opening start.cpu start.hardware cartridge buttons drawn).frame = scan := ⟨_, rfl⟩
  rw [playCounted_some hc buttons drawn frame]
  dsimp only
  unfold endFrame
  split
  · dsimp only [install]
    rw [fresh, endFrame_fresh]
    rfl
  · rfl

/-- The CPU is about to run the program at `start`, with save RAM `save`. -/
structure Begins (console : Console) (image : Image) (save : SaveRam) (start : UInt16)
    (cartridge : Cartridge) : Prop where
  plugged : console.cartridge = some cartridge
  calm : Machine.Calm image save ⟨console.cpu, .plugged console.hardware cartridge⟩
  a : console.cpu.a = 0
  pc : console.cpu.pc = start
  cycles : console.cpu.cycles = 0

section
variable {console : Console} {image : Image} {save : SaveRam} {start : UInt16}
  {cartridge : Cartridge}

/-- An NROM with a battery is plugged in. -/
theorem begins_plugsIn (sized : image.Sized) (battery : image.header.battery = true)
    (low : image.shown? resetVector = some (lowByte start))
    (high : image.shown? (resetVector + 1) = some (highByte start))
    {turn : Turn} {frame : (UInt8 × UInt8) × Bool} (asked : turn.frame? = some frame)
    (on : console.phase = .powerOn)
    (load : console.chosen turn.files = .ok (.ofImage image .nrom)) :
    ∃ waiting cartridge, (console.take turn).2 = waiting ∧ waiting.phase = .awaitStorage ∧
      Begins waiting image (Cartridge.ofImage image .nrom).save start cartridge := by
  have hload := take_loads asked on load battery
  obtain ⟨calm, line, hcpu⟩ := calm_switchedOn sized low high console.cpu
  have hon : (console.powerOn (.ofImage image .nrom)).2 =
      console.start (switchedOn console.cpu (.ofImage image .nrom)) := by rw [powerOn_eq]
  -- the machine that was switched on stays closed from here on
  generalize switchedOn console.cpu (.ofImage image .nrom) = machine at calm hcpu hon
  have hbattery : machine.bus.cartridge.battery = true := by
    unfold Cartridge.battery
    rw [calm.resting.banked.image_eq]
    exact battery
  refine ⟨console.start machine, machine.bus.cartridge, ?_, if_pos hbattery, rfl, ?_,
    congrArg Cpu.a hcpu, congrArg Cpu.pc hcpu, congrArg Cpu.cycles hcpu⟩
  · rw [hload, hon]
  · exact ⟨System.resting_forget calm.resting, calm.masked, calm.pending⟩

/-- The stored image comes. -/
theorem begins_accepts (h : Begins console image save start cartridge)
    (on : console.phase = .awaitStorage) (files : Files) (stored : Bytes) :
    ∃ running loaded, console.take ⟨files, .storage stored⟩ = (.ok {}, running) ∧
      running.phase = .running ∧ running.schedule = .fresh cartridge.save.writes ∧
      Begins running image (save.load stored) start loaded := by
  have hrest := System.resting_mapSave h.calm.resting (·.load stored)
  refine ⟨_, { cartridge with save := cartridge.save.load stored },
    take_accepts on h.plugged files stored, rfl, rfl, rfl, ?_, h.a, h.pc, h.cycles⟩
  exact ⟨hrest, h.calm.masked, h.calm.pending⟩

/-- The first frame after the stored image has come hands nothing out, even if the program
    stores a byte in save RAM. -/
theorem take_stores (h : Begins console image save start cartridge)
    (on : console.phase = .running) {count : UInt32} (fresh : console.schedule = .fresh count)
    {addr : UInt16} {offset : Nat}
    (program : image.Stores start (start + 1 + 1 + 1) addr offset) (files : Files)
    (buttons : UInt8 × UInt8) :
    storageOf (console.take ⟨files, .frame buttons⟩).1 = [] ∧
      (console.take ⟨files, .frame buttons⟩).2.phase = .running ∧
      ∃ kept, (console.take ⟨files, .frame buttons⟩).2.cartridge = some kept ∧
        kept.image = image ∧ kept.save = save.write offset 0 := by
  have hbegin : Machine.Calm image save
      (opening console.cpu console.hardware cartridge buttons true).machine :=
    ⟨System.resting_mapIo h.calm.resting (·.setButtons buttons), h.calm.masked, h.calm.pending⟩
  have hprogram : image.Stores console.cpu.pc (console.cpu.pc + 1 + 1 + 1) addr offset :=
    h.pc ▸ program
  have hearly : console.cpu.cycles < lineCycles := by
    rw [h.cycles]
    decide
  have hframe : Machine.Looping image (save.write offset console.cpu.a)
      (console.cpu.pc + 1 + 1 + 1)
      (opening console.cpu console.hardware cartridge buttons true).frame.machine :=
    Scan.frame_stores hbegin hprogram hearly
  rw [h.a] at hframe
  have ready : console.ready? files = some (#[], console) := by
    unfold ready?
    rw [on]
  have htake := @take_ready console console ⟨files, .frame buttons⟩ buttons true #[] rfl ready
  have hnothing := playCounted_fresh h.plugged fresh buttons true
  obtain ⟨storage, schedule, hplay, _⟩ := playCounted_eq h.plugged buttons true
  -- the frame stays closed from here on
  generalize (opening console.cpu console.hardware cartridge buttons true).frame = scan
    at hframe hplay
  rw [@advance_due console true rfl buttons, hplay] at htake
  rw [hplay] at hnothing
  rw [htake]
  exact ⟨hnothing, on, scan.machine.bus.cartridge, rfl, hframe.resting.banked.image_eq,
    hframe.resting.save_eq⟩

/-- An answer that hands no save RAM out. -/
def SavesNothing (answer : Except LoadError Response) : Prop :=
  ∀ key data, .save key data ∉ storageOf answer

theorem savesNothing_of_nil {answer : Except LoadError Response} (h : storageOf answer = []) :
    SavesNothing answer := by
  intro key data hmem
  rw [h] at hmem
  cases hmem

/-- A ROM whose program stores a byte in save RAM is plugged in, its stored image comes, and it
    runs for a frame. Its save RAM then differs from the stored image in that byte, and nothing
    was handed out. -/
theorem stores_after {registry : Registry} {bytes : Bytes} (sized : image.Sized)
    (load : Cartridge.load registry bytes none = .ok (.ofImage image .nrom))
    (battery : image.header.battery = true)
    (low : image.shown? resetVector = some (lowByte start))
    (high : image.shown? (resetVector + 1) = some (highByte start)) {addr : UInt16}
    {offset : Nat} (program : image.Stores start (start + 1 + 1 + 1) addr offset) (files : Files)
    (buttons : UInt8 × UInt8) (stored : Bytes) :
    let turns : List Turn := [⟨files, .insert (.image bytes)⟩, ⟨files, .frame buttons⟩,
      ⟨files, .storage stored⟩, ⟨files, .frame buttons⟩]
    let loaded := (Cartridge.ofImage image .nrom).save.load stored
    (({ registry } : Console).after turns).phase = .running ∧
      (∃ cartridge, (({ registry } : Console).after turns).battery? = some cartridge ∧
        cartridge.image = image ∧ cartridge.save = loaded.write offset 0) ∧
      lastStored registry turns = some loaded.bytes ∧
      ∀ answer ∈ ({ registry } : Console).answers turns, SavesNothing answer := by
  intro turns loaded
  let frame : Turn := ⟨files, .frame buttons⟩
  let new : Console := { registry }
  let chosen : Console := { registry, source := some (.image bytes) }
  have hnew : new.phase ≠ .halted := fun h => nomatch h
  have hinsert : new.take ⟨files, .insert (.image bytes)⟩ = (.ok {}, chosen) :=
    take_insert hnew files (.image bytes)
  have hload : chosen.chosen frame.files = .ok (.ofImage image .nrom) := load
  have hplugs : chosen.plugsIn frame = true := plugsIn_iff.mpr ⟨_, _, rfl, rfl, hload⟩
  obtain ⟨waiting, plugged, hwaiting, hwaits, hbegins⟩ :=
    begins_plugsIn sized battery low high rfl rfl hload
  obtain ⟨running, played, haccept, hruns, hfresh, hplays⟩ :=
    begins_accepts hbegins hwaits files stored
  obtain ⟨hstorage, hphase, kept, hkept, himage, hsave⟩ :=
    take_stores hplays hruns hfresh program files buttons
  have hbattery (cartridge : Cartridge) (himage : cartridge.image = image) :
      cartridge.battery = true := by
    unfold Cartridge.battery
    rw [himage]
    exact battery
  have hplayed : running.battery? = some played :=
    battery_eq_some.mpr ⟨hplays.plugged, hbattery played hplays.calm.resting.banked.image_eq⟩
  have hstays {turn : Turn} : running.plugsIn turn = false := by
    unfold plugsIn
    rw [hruns]
    simp
  have hafter : new.after turns = (running.take frame).2 := by
    simp only [turns, after_cons, after_nil, hinsert, frame, hwaiting, haccept]
  rw [hafter]
  refine ⟨hphase, ⟨kept, battery_eq_some.mpr ⟨hkept, hbattery kept himage⟩, himage, hsave⟩, ?_, ?_⟩
  · have haccepts : waiting.accepts ⟨files, .storage stored⟩ = true := by
      unfold accepts
      simp [hwaits]
    have hstored : lastStored registry turns =
        running.storedBy (waiting.storedBy (chosen.storedBy (new.storedBy none
          ⟨files, .insert (.image bytes)⟩) frame) ⟨files, .storage stored⟩) frame := by
      simp only [lastStored, turns, storedAfter, hinsert, frame, hwaiting, haccept, new]
    have hsame : played.save = loaded := hplays.calm.resting.save_eq
    rw [hstored, storedBy_plugsIn hplugs, storedBy_accepts rfl haccepts,
      storedBy_still hstays rfl hstorage, haccept, hplayed, Option.map_some, hsame]
  · have hanswers : new.answers turns = [.ok {}, (chosen.take frame).1, .ok {},
        (running.take frame).1] := by
      simp only [turns, answers, hinsert, frame, hwaiting, haccept]
    rw [hanswers]
    simp only [List.forall_mem_cons]
    exact ⟨savesNothing_of_nil rfl, save_not_mem_plugsIn hplugs, savesNothing_of_nil rfl,
      savesNothing_of_nil hstorage, fun _ hmem => absurd hmem List.not_mem_nil⟩

/-- A byte of save RAM that changes. -/
theorem bytes_write_ne {save : SaveRam} {offset : Nat} (inside : offset < saveSize)
    {value : UInt8} (differs : save.bytes[offset]? ≠ some value) :
    (save.write offset value).bytes ≠ save.bytes := by
  intro hsame
  refine differs ?_
  rw [← hsame]
  unfold SaveRam.write SaveRam.bytes Ram.write Ram.bytes
  simp [Nat.mod_eq_of_lt inside, inside]

/-- Another cartridge is chosen while the save RAM is unsaved, and a frame plugs it in. -/
theorem discards_after {registry : Registry} {turns : List Turn}
    (on : (({ registry } : Console).after turns).phase = .running)
    (unsaved : (({ registry } : Console).after turns).Unsaved (lastStored registry turns) cartridge)
    {bytes : Bytes} {other : Cartridge} (load : Cartridge.load registry bytes none = .ok other)
    (files : Files) (buttons : UInt8 × UInt8)
    (nothing : ∀ answer ∈ ({ registry } : Console).answers turns, SavesNothing answer) :
    let chosen : List Turn := turns ++ [⟨files, .insert (.image bytes)⟩]
    let frame : Turn := ⟨files, .frame buttons⟩
    (({ registry } : Console).after chosen).Discards (lastStored registry chosen) frame ∧
      ∀ answer ∈ ({ registry } : Console).answers (chosen ++ [frame]), SavesNothing answer := by
  intro chosen frame
  let new : Console := { registry }
  have hlive : (new.after turns).phase ≠ .halted := by
    rw [on]
    decide
  have hinsert := take_insert hlive files (.image bytes)
  have hafter : new.after chosen =
      { new.after turns with source := some (.image bytes), phase := .powerOn } := by
    rw [after_concat, hinsert]
  have hplugs : (new.after chosen).plugsIn frame = true := by
    have hregistry : (new.after turns).registry = registry := registry_after registry turns
    refine plugsIn_iff.mpr ⟨_, other, rfl, ?_, ?_⟩
    · rw [hafter]
    · rw [hafter]
      show Cartridge.load (new.after turns).registry bytes none = .ok other
      rw [hregistry]
      exact load
  have hstays : (new.after turns).plugsIn ⟨files, .insert (.image bytes)⟩ = false := rfl
  have hstored : lastStored registry chosen = lastStored registry turns := by
    unfold lastStored
    rw [storedAfter_append]
    exact storedBy_still hstays rfl (by rw [hinsert]; rfl) _
  have hbattery : (new.after chosen).battery? = some cartridge := by
    rw [hafter]
    exact unsaved.plugged
  refine ⟨⟨cartridge, ⟨hbattery, ?_⟩, hplugs, save_not_mem_plugsIn hplugs _ _⟩, ?_⟩
  · rw [hstored]
    exact unsaved.differs
  · rw [answers_append, answers_append]
    simp only [List.forall_mem_append, answers, List.forall_mem_singleton]
    refine ⟨⟨nothing, ?_⟩, save_not_mem_plugsIn hplugs⟩
    rw [hinsert]
    exact savesNothing_of_nil rfl

end

/-- The ROM with such a program, after its first frame. -/
theorem unsaved_storeRom :
    ∃ turns cartridge, (({} : Console).after turns).phase = .running ∧
      (({} : Console).after turns).Unsaved (lastStored {} turns) cartridge ∧
      ∀ answer ∈ ({} : Console).answers turns, SavesNothing answer := by
  obtain ⟨hphase, ⟨cartridge, battery, _, hsave⟩, hstored, hnothing⟩ :=
    stores_after (Image.sized_of_parse (Image.parse_storeRom 0x8003)) (Image.load_storeRom 0x8003)
      rfl (Image.vector_storing 0x8003).1 (Image.vector_storing 0x8003).2
      (Image.stores_storing 0x8003) (fun _ => .ok #[]) (0, 0) #[1]
  let loaded := (Cartridge.ofImage (.storing 0x8003) .nrom).save.load #[1]
  have hfirst : loaded.bytes[0]? ≠ some 0 := by
    simp [loaded, SaveRam.load, SaveRam.bytes, Ram.load, Ram.bytes, copyInto]
  have hdiffers : cartridge.save.bytes ≠ loaded.bytes := by
    rw [hsave]
    exact bytes_write_ne (by decide) hfirst
  exact ⟨_, cartridge, hphase, ⟨battery, _, hstored, hdiffers⟩, hnothing⟩

/-! ## The result -/

/-- After any sequence of requests to a new console:
    - a request loses unsaved save RAM exactly if it is the frame that plugs another cartridge
      in;
    - any other request leaves a cartridge with a battery in its place, and hands out nothing or
      the save RAM as it is afterwards;
    - when the stored image comes, or save RAM is handed out, nothing is unsaved;
    - from the moment that another cartridge is chosen, unsaved save RAM stays as it is and
      unsaved, whatever comes before that frame, unless the console is shut down; a shutdown
      hands it out. -/
theorem discards_iff (registry : Registry) (turns : List Turn) :
    let console := ({ registry } : Console).after turns
    let stored := lastStored registry turns
    (∀ turn, console.Discards stored turn ↔
      console.plugsIn turn = true ∧ ∃ cartridge, console.Unsaved stored cartridge) ∧
    (∀ cartridge, console.battery? = some cartridge → ∀ turn, console.plugsIn turn = false →
      Keeps cartridge (console.take turn)) ∧
    (∀ turn, (console.accepts turn = true ∨
        ∃ key data, .save key data ∈ storageOf (console.take turn).1) →
      ∀ cartridge,
        ¬ (console.take turn).2.Unsaved (lastStored registry (turns ++ [turn])) cartridge) ∧
    (∀ cartridge, console.Unsaved stored cartridge → console.phase = .powerOn →
      ∀ more, console.Lingers more →
        (console.after more).Unsaved (lastStored registry (turns ++ more)) cartridge ∧
        ∀ files, storageOf ((console.after more).take ⟨files, .shutdown⟩).1 =
          [.save cartridge.image.key cartridge.save.bytes]) := by
  intro console stored
  refine ⟨fun turn => ?lost, fun cartridge battery turn stays => ?kept,
    fun turn h cartridge => ?settled, fun cartridge unsaved on more lingers => ?lingering⟩
  case lost =>
    constructor
    · rintro ⟨cartridge, unsaved, plugs, _⟩
      exact ⟨plugs, cartridge, unsaved⟩
    · rintro ⟨plugs, cartridge, unsaved⟩
      exact ⟨cartridge, unsaved, plugs, save_not_mem_plugsIn plugs _ _⟩
  case kept => exact keeps_take (pluggedIn_after registry turns) battery stays
  case settled =>
    unfold lastStored
    rw [storedAfter_append]
    exact settled_take h stored cartridge
  case lingering =>
    obtain ⟨hphase, hcartridge, hstored⟩ := lingers_after on lingers stored
    have hbattery : (console.after more).battery? = some cartridge := by
      unfold battery?
      rw [hcartridge]
      exact unsaved.plugged
    refine ⟨⟨hbattery, ?_⟩, fun files => ?_⟩
    · unfold lastStored
      rw [storedAfter_append]
      exact ⟨_, hstored.trans unsaved.differs.choose_spec.1, unsaved.differs.choose_spec.2⟩
    · rw [take_shutdown hphase, save_some hbattery]

/-- A program changed a byte of save RAM, and another cartridge is chosen: pressing reset keeps
    the byte, a shutdown after that hands it out, and a frame would have lost it. -/
theorem discards_iff_of_storeRom :
    ∃ turns cartridge,
      let console := ({} : Console).after turns
      let turn (request : Request) : Turn := ⟨fun _ => .ok #[], request⟩
      console.Unsaved (lastStored {} turns) cartridge ∧ console.phase = .powerOn ∧
        console.Discards (lastStored {} turns) (turn (.frame (0, 0))) ∧
        Keeps cartridge (console.take (turn .reset)) ∧
        storageOf ((console.after [turn .reset]).take (turn .shutdown)).1 =
          [.save cartridge.image.key cartridge.save.bytes] := by
  obtain ⟨turns, _, running, unsaved, nothing⟩ := unsaved_storeRom
  have hload : ∃ other, Cartridge.load {} batteryHeader none = .ok other := ⟨_, rfl⟩
  obtain ⟨other, load⟩ := hload
  let files : Files := fun _ => .ok #[]
  let chosen : List Turn := turns ++ [⟨files, .insert (.image batteryHeader)⟩]
  obtain ⟨⟨cartridge, unsaved, plugs, _⟩, _⟩ :=
    discards_after running unsaved load files (0, 0) nothing
  obtain ⟨_, _, _, on, _⟩ := plugsIn_iff.mp plugs
  obtain ⟨hlost, hkept, _, hlingers⟩ := discards_iff {} chosen
  have hlinger : (({} : Console).after chosen).Lingers [⟨files, .reset⟩] := by
    intro step hmem
    rw [List.mem_singleton.mp hmem]
    exact ⟨rfl, fun h => nomatch h⟩
  exact ⟨chosen, cartridge, unsaved, on, (hlost _).mpr ⟨plugs, cartridge, unsaved⟩,
    hkept cartridge unsaved.plugged ⟨files, .reset⟩ rfl,
    (hlingers cartridge unsaved on [⟨files, .reset⟩] hlinger).2 files⟩

/-- A program changes a byte of save RAM, and another cartridge is plugged in: the byte is lost,
    and no answer on the way holds anything to be saved. -/
theorem discards_of_storeRom :
    ∃ turns turn, (({} : Console).after turns).Discards (lastStored {} turns) turn ∧
      ∀ answer ∈ ({} : Console).answers (turns ++ [turn]), SavesNothing answer := by
  obtain ⟨turns, cartridge, running, unsaved, nothing⟩ := unsaved_storeRom
  have hload : ∃ other, Cartridge.load {} batteryHeader none = .ok other := ⟨_, rfl⟩
  obtain ⟨other, load⟩ := hload
  exact ⟨_, _, discards_after running unsaved load (fun _ => .ok #[]) (0, 0) nothing⟩

end Console
end Nes
