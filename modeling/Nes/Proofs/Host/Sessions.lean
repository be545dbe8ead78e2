/-
  Save RAM survives from one session to the next.

  A session is a worker's life with one cartridge that has a battery: the cartridge is chosen,
  requests come that neither choose another one nor stop the console, and then the worker is
  shut down, stopped or left alone (`Session`). Until the first frame is asked for, nothing is
  plugged in (`Chosen`). The worker answers that frame's wish for the stored image itself, so the
  console never waits between two requests; it runs, or is to start over (`Playing`), and what it
  hands out goes to storage under the cartridge's key. Whatever ends the session then leaves
  there the save RAM of that moment, and the first frame of the next session starts from it
  (`save_ram_survives`).
-/
import Nes.Host.Worker
import Nes.Proofs.Console.Reactions
import Nes.Proofs.Host.FileNames

namespace Nes

/-- Whether a request neither chooses a cartridge nor stops the console. -/
def Turn.plain (turn : Turn) : Bool :=
  match turn.request with
  | .insert _ | .shutdown => false
  | .frame _ | .skip _ | .reset | .storage _ => true

/-- The request as a client's message, with the files that can be read when it comes. -/
def Turn.message (turn : Turn) : Files × Message := (turn.files, .execute turn.request)

namespace Worker

section
variable {σ : Type} [Storage σ] {worker : Worker σ} {turn : Turn}

/-- The worker's loop: one message after the other until the worker has ended. When the line goes
    dead, it ends; `last` are the files that can be read then. -/
def run (last : Files) (worker : Worker σ) : List (Files × Message) → Worker σ
  | [] => worker.finish last
  | (files, message) :: messages =>
    let next := (worker.handle files message).2
    if next.ended then next else next.run last messages

/-- The worker after a client's request. -/
def obey (worker : Worker σ) (turn : Turn) : Worker σ :=
  (worker.handle turn.files (.execute turn.request)).2

/-- The consoles from which a worker plays frames while it obeys requests. -/
def begun (worker : Worker σ) : List Turn → List Console
  | [] => []
  | turn :: turns => (worker.console.begun? turn).toList ++ (worker.obey turn).begun turns

/-- What the console wishes is served after the request. -/
theorem execute_eq {files : Files} {request : Request} {response : Response} {console : Console}
    (h : worker.console.take ⟨files, request⟩ = (.ok response, console)) :
    (worker.execute files request).2 =
      response.storage.foldl (serve files) { worker with console } := by
  have hexecute : worker.console.execute files request = (.ok response, console) := h
  obtain ⟨before, storage, ended⟩ := worker
  unfold execute
  dsimp only at hexecute ⊢
  rw [hexecute]

theorem obey_eq (plain : turn.plain = true) {response : Response} {console : Console}
    (h : worker.console.take turn = (.ok response, console)) :
    worker.obey turn = response.storage.foldl (serve turn.files) { worker with console } := by
  have hshutdown : turn.request ≠ .shutdown := by
    intro hrequest
    unfold Turn.plain at plain
    rw [hrequest] at plain
    cases plain
  unfold obey handle
  dsimp only
  rw [if_neg hshutdown, execute_eq h]

/-! ## Before the first frame -/

/-- The cartridge from `source` is to be plugged in with the next frame. -/
structure Chosen (registry : Registry) (source : Source) (worker : Worker σ) : Prop where
  on : worker.console.phase = .powerOn
  registry_eq : worker.console.registry = registry
  source_eq : worker.console.source = some source
  ended : worker.ended = false

/-- A cartridge runs, with an image and a save RAM. -/
structure Playing (image : Image) (save : SaveRam) (worker : Worker σ) : Prop where
  on : worker.console.phase = .running ∨ worker.console.phase = .reset
  cartridge : ∃ cartridge, worker.console.cartridge = some cartridge ∧ cartridge.image = image ∧
    cartridge.save = save
  ended : worker.ended = false

variable {registry : Registry} {source : Source} {cartridge : Cartridge}

omit [Storage σ] in
theorem Chosen.load (h : Chosen registry source worker) {files : Files}
    (load : source.load files registry = .ok cartridge) :
    worker.console.chosen files = .ok cartridge := by
  unfold Console.chosen
  rw [h.source_eq, h.registry_eq]
  exact load

/-- A request that is no frame leaves the choice alone. -/
theorem chosen_obey (h : Chosen registry source worker) (plain : turn.plain = true)
    (noFrame : turn.frame? = none) :
    Chosen registry source (worker.obey turn) ∧ (worker.obey turn).storage = worker.storage := by
  have hneed {frame : (UInt8 × UInt8) × Bool} : turn.frame? ≠ some frame := by
    rw [noFrame]
    exact fun h => nomatch h
  obtain ⟨result, hresult⟩ : ∃ result, worker.console.take turn = result := ⟨_, rfl⟩
  have hreaction := Console.take_reaction worker.console turn
  rw [hresult] at hreaction
  cases hreaction with
  | halted on =>
    rw [h.on] at on
    cases on
  | waits asked | fails asked | loads asked | drops asked | plays asked => exact absurd asked hneed
  | presses asked on =>
    rw [obey_eq plain hresult]
    have hphase : (if worker.console.phase = .running then .reset else worker.console.phase) =
        Phase.powerOn := by
      rw [h.on]
      rfl
    exact ⟨⟨hphase, h.registry_eq, h.source_eq, h.ended⟩, rfl⟩
  | stops asked | chooses asked =>
    unfold Turn.plain at plain
    rw [asked] at plain
    cases plain
  | accepts asked on =>
    rw [obey_eq plain hresult, Console.acceptStorage_of_ne (by rw [h.on]; decide)]
    exact ⟨⟨h.on, h.registry_eq, h.source_eq, h.ended⟩, rfl⟩

theorem plain_of_asked {frame : (UInt8 × UInt8) × Bool} (asked : turn.frame? = some frame) :
    turn.plain = true := by
  unfold Turn.frame? at asked
  unfold Turn.plain
  split at asked
  · next hrequest => rw [hrequest]
  · next hrequest => rw [hrequest]
  all_goals cases asked

/-- The first frame plugs the cartridge in, and the worker brings its stored image. -/
theorem playing_first (h : Chosen registry source worker)
    (load : source.load turn.files registry = .ok cartridge) (battery : cartridge.battery = true)
    {frame : (UInt8 × UInt8) × Bool} (asked : turn.frame? = some frame) :
    Playing cartridge.image
        (cartridge.save.load (Storage.load worker.storage cartridge.image.key saveSize))
        (worker.obey turn) ∧
      (worker.obey turn).storage = worker.storage ∧ (worker.obey turn).console.skipped = 0 := by
  obtain ⟨⟨board, irq, hc⟩, hphase⟩ := Console.powerOn_plugged worker.console cartridge
  rw [if_pos battery] at hphase
  have hskipped : (worker.console.powerOn cartridge).2.skipped = 0 := by
    rw [Console.powerOn_eq]
    rfl
  have htake := Console.take_loads asked h.on (h.load load) battery
  rw [obey_eq (plain_of_asked asked) htake]
  -- what was switched on stays closed
  generalize worker.console.powerOn cartridge = result at hc hphase hskipped
  have haccepted := congrArg Prod.snd (Console.take_accepts hphase hc turn.files
    (Storage.load worker.storage cartridge.image.key saveSize))
  unfold Console.take at haccepted
  dsimp only [List.foldl_cons, List.foldl_nil, serve] at haccepted ⊢
  rw [haccepted]
  exact ⟨⟨.inl rfl, ⟨_, rfl, rfl, rfl⟩, h.ended⟩, rfl, hskipped⟩

/-! ## While a cartridge runs -/

variable {image : Image} {save : SaveRam}

omit [Storage σ] in
theorem Playing.plugged (h : Playing image save worker) : Console.PluggedIn worker.console := by
  obtain ⟨cartridge, hc, _, _⟩ := h.cartridge
  intro _
  rw [hc]
  rfl

omit [Storage σ] in
theorem Playing.ready (h : Playing image save worker) (files : Files) :
    (worker.console.ready? files).isSome = true := by
  unfold Console.ready?
  obtain on | on := h.on
  · rw [on]
    rfl
  · rw [on]
    rfl

/-- A request that plays no frame leaves the cartridge and the storage alone. -/
theorem playing_still (h : Playing image save worker) (plain : turn.plain = true)
    (still : worker.console.begun? turn = none) :
    Playing image save (worker.obey turn) ∧ (worker.obey turn).storage = worker.storage ∧
      (worker.obey turn).console.skipped = worker.console.skipped := by
  have hphase {phase : Phase} (on : worker.console.phase = phase) :
      phase = .running ∨ phase = .reset := by
    rw [← on]
    exact h.on
  obtain ⟨result, hresult⟩ : ∃ result, worker.console.take turn = result := ⟨_, rfl⟩
  have hreaction := Console.take_reaction worker.console turn
  rw [hresult] at hreaction
  cases hreaction with
  | halted on | waits _ on | fails _ on | loads _ on => simpa using hphase on
  | drops asked ready full =>
    obtain ⟨_, _, rfl⟩ := Console.ready_full h.plugged ready full
    rw [obey_eq plain hresult]
    exact ⟨⟨h.on, h.cartridge, h.ended⟩, rfl, rfl⟩
  | plays asked ready due =>
    have hbegun := Console.begun_eq_some.mpr ⟨_, _, _, asked, ready, due⟩
    rw [still] at hbegun
    cases hbegun
  | presses asked on =>
    rw [obey_eq plain hresult]
    refine ⟨⟨?_, h.cartridge, h.ended⟩, rfl, rfl⟩
    obtain hrunning | hreset := h.on
    · exact .inr (if_pos hrunning)
    · exact .inr ((if_neg (by rw [hreset]; decide)).trans hreset)
  | stops asked | chooses asked =>
    unfold Turn.plain at plain
    rw [asked] at plain
    cases plain
  | accepts asked on =>
    have hwaits : worker.console.phase ≠ .awaitStorage := by
      intro on
      simpa using hphase on
    rw [obey_eq plain hresult, Console.acceptStorage_of_ne hwaits]
    exact ⟨⟨h.on, h.cartridge, h.ended⟩, rfl, rfl⟩

omit [Storage σ] in
/-- A frame starts from the save RAM that is there, also after the reset button. -/
theorem Playing.start (h : Playing image save worker) {start : Console}
    (begun : worker.console.begun? turn = some start) :
    ∃ cartridge, start.cartridge = some cartridge ∧ cartridge.image = image ∧
      cartridge.save = save := by
  obtain ⟨cartridge, hc, himage, hsave⟩ := h.cartridge
  obtain ⟨_, _, _, _, ready, _⟩ := Console.begun_eq_some.mp begun
  obtain ⟨_, on, _⟩ | ⟨_, hreset⟩ | ⟨_, _, rfl⟩ := Console.ready_cases ready
  · obtain hrunning | hreset := h.on
    · rw [hrunning] at on
      cases on
    · rw [hreset] at on
      cases on
  · obtain ⟨board, irq, hplugged⟩ := Console.pressReset_plugged hc
    rw [hreset] at hplugged
    exact ⟨_, hplugged, himage, hsave⟩
  · exact ⟨cartridge, hc, himage, hsave⟩

/-- What a frame hands out goes to storage under the cartridge's key, and is the save RAM that
    the cartridge has then. -/
theorem playing_begun (h : Playing image save worker) {start : Console}
    (begun : worker.console.begun? turn = some start) :
    ∃ save', Playing image save' (worker.obey turn) ∧
      ((worker.obey turn).storage = worker.storage ∨
        (worker.obey turn).storage = Storage.save worker.storage image.key save'.bytes) := by
  obtain ⟨cartridge, hc, rfl, _⟩ := h.start begun
  obtain ⟨_, _, _, _, ready, _⟩ := Console.begun_eq_some.mp begun
  have hrunning := (Console.ready_running h.plugged ready).1
  obtain ⟨buttons, drawn, plugged, scan, journal, storage, schedule, asked, hplugged, _, hframe,
    htake, hstorage⟩ := Console.take_begun h.plugged begun
  cases hc.symm.trans hplugged
  have himage : scan.machine.bus.cartridge.image = cartridge.image := by
    rw [hframe]
    exact (Console.run_opening start.cpu start.hardware cartridge buttons drawn).image_eq.1
  rw [obey_eq (plain_of_asked asked) htake]
  dsimp only
  refine ⟨scan.machine.bus.cartridge.save, ?_, ?_⟩
  · obtain rfl | ⟨_, rfl⟩ := hstorage
    · exact ⟨.inl hrunning, ⟨_, rfl, himage, rfl⟩, h.ended⟩
    · exact ⟨.inl hrunning, ⟨_, rfl, himage, rfl⟩, h.ended⟩
  · obtain rfl | ⟨_, rfl⟩ := hstorage
    · exact .inl rfl
    · exact .inr rfl

/-! ## The end -/

/-- The end of a worker that plays: save RAM is in storage, and the console has stopped. -/
structure Stored (image : Image) (save : SaveRam) (before worker : Worker σ) : Prop where
  ended : worker.ended = true
  cartridge : ∃ cartridge, worker.console.cartridge = some cartridge ∧ cartridge.image = image ∧
    cartridge.save = save
  storage : worker.storage = Storage.save before.storage image.key save.bytes

theorem execute_shutdown (h : Playing image save worker) (battery : image.header.battery = true)
    (files : Files) :
    ∃ schedule, (worker.execute files .shutdown).2 =
      { worker with
        console := { worker.console with schedule, phase := .halted }
        storage := Storage.save worker.storage image.key save.bytes } := by
  obtain ⟨cartridge, hc, rfl, rfl⟩ := h.cartridge
  have hbattery : worker.console.battery? = some cartridge := by
    unfold Console.battery?
    rw [hc, Option.filter_some]
    exact if_pos battery
  have on : worker.console.phase ≠ .halted ∧ worker.console.phase ≠ .awaitStorage := by
    obtain on | on := h.on
    · rw [on]
      decide
    · rw [on]
      decide
  have hstop : worker.console.shutDown =
      ({ storage := [.save cartridge.image.key cartridge.save.bytes] },
        { worker.console with
          schedule := .fresh cartridge.save.writes, phase := .halted }) := by
    unfold Console.shutDown
    rw [if_neg on.2, Console.save_eq hbattery]
  have htake := (@Console.Reaction.stops worker.console ⟨files, .shutdown⟩ rfl on.1).eq_take
  rw [hstop] at htake
  exact ⟨_, execute_eq htake.symm⟩

theorem stored_finish (h : Playing image save worker) (battery : image.header.battery = true)
    (files : Files) : Stored image save worker (worker.finish files) := by
  obtain ⟨schedule, hexecute⟩ := execute_shutdown h battery files
  have hhalted : ¬ worker.console.isHalted = true := by
    obtain on | on := h.on
    · simp [Console.isHalted, on]
    · simp [Console.isHalted, on]
  unfold finish
  rw [if_neg hhalted, hexecute]
  exact ⟨rfl, h.cartridge, rfl⟩

theorem stored_shutdown (h : Playing image save worker) (battery : image.header.battery = true)
    (files : Files) :
    Stored image save worker (worker.handle files (.execute .shutdown)).2 := by
  obtain ⟨schedule, hexecute⟩ := execute_shutdown h battery files
  unfold handle
  dsimp only
  rw [if_pos rfl, hexecute]
  exact ⟨rfl, h.cartridge, rfl⟩

/-- The ways in which a session ends: a request to shut down, the owner's word to stop, or
    nothing more at all. What would come after is not received. -/
def Ends (ending : List (Files × Message)) : Prop :=
  ending = [] ∨ ∃ files later, ending = (files, .execute .shutdown) :: later ∨
    ending = (files, .stop) :: later

theorem stored_ending (h : Playing image save worker) (battery : image.header.battery = true)
    (last : Files) {ending : List (Files × Message)} (ends : Ends ending) :
    Stored image save worker (worker.run last ending) := by
  obtain rfl | ⟨files, later, rfl | rfl⟩ := ends
  · exact stored_finish h battery last
  · have hstored := stored_shutdown h battery files
    unfold run
    dsimp only
    rw [if_pos hstored.ended]
    exact hstored
  · have hstored : Stored image save worker (worker.handle files .stop).2 :=
      stored_finish h battery files
    unfold run
    dsimp only
    rw [if_pos hstored.ended]
    exact hstored

/-! ## Sequences of requests -/

/-- The worker after a sequence of a client's requests. -/
def obeyAll (worker : Worker σ) (turns : List Turn) : Worker σ := turns.foldl obey worker

theorem run_message (running : (worker.obey turn).ended = false) (last : Files)
    (messages : List (Files × Message)) :
    worker.run last (turn.message :: messages) = (worker.obey turn).run last messages := by
  have hstep : worker.run last (turn.message :: messages) =
      if (worker.obey turn).ended then worker.obey turn
      else (worker.obey turn).run last messages := rfl
  rw [hstep, running]
  rfl

variable {kept : σ → Option Bytes} {sound : σ → Prop}

theorem playing_obey (keeps : Storage.Keeps image.key kept sound)
    (h : Playing image save worker) (hsound : sound worker.storage) (plain : turn.plain = true) :
    ∃ save', Playing image save' (worker.obey turn) ∧ sound (worker.obey turn).storage := by
  cases begun : worker.console.begun? turn with
  | none =>
    obtain ⟨hplaying, hstorage, _⟩ := playing_still h plain begun
    exact ⟨save, hplaying, by rwa [hstorage]⟩
  | some start =>
    obtain ⟨save', hplaying, hstorage | hstorage⟩ := playing_begun h begun
    · exact ⟨save', hplaying, by rwa [hstorage]⟩
    · rw [hstorage]
      exact ⟨save', hplaying, (keeps.save _ _ hsound).2⟩

/-- What a sequence of requests leaves of a worker that plays: one that plays. -/
theorem playing_obeyAll (keeps : Storage.Keeps image.key kept sound)
    (h : Playing image save worker) (hsound : sound worker.storage) {turns : List Turn}
    (plain : ∀ turn ∈ turns, turn.plain = true) (last : Files)
    (ending : List (Files × Message)) :
    ∃ save', Playing image save' (worker.obeyAll turns) ∧
      sound (worker.obeyAll turns).storage ∧
      worker.run last (turns.map Turn.message ++ ending) =
        (worker.obeyAll turns).run last ending := by
  induction turns generalizing worker save with
  | nil => exact ⟨save, h, hsound, rfl⟩
  | cons turn turns ih =>
    have hturn : turn.plain = true := plain turn List.mem_cons_self
    obtain ⟨save', hplaying, hsound'⟩ := playing_obey keeps h hsound hturn
    obtain ⟨save'', hall, hsound'', hrun⟩ :=
      ih hplaying hsound' fun turn hmem => plain turn (List.mem_cons_of_mem _ hmem)
    refine ⟨save'', hall, hsound'', ?_⟩
    rw [List.map_cons, List.cons_append, run_message hplaying.ended, hrun]
    rfl

/-- The same from the choice of the cartridge on, if a frame is asked for. -/
theorem chosen_obeyAll (keeps : Storage.Keeps cartridge.image.key kept sound)
    (battery : cartridge.battery = true) (h : Chosen registry source worker)
    (hsound : sound worker.storage) {turns : List Turn}
    (plain : ∀ turn ∈ turns, turn.plain = true)
    (loads : ∀ turn ∈ turns, source.load turn.files registry = .ok cartridge)
    (frames : ∃ turn ∈ turns, turn.frame?.isSome = true) (last : Files)
    (ending : List (Files × Message)) :
    ∃ save', Playing cartridge.image save' (worker.obeyAll turns) ∧
      sound (worker.obeyAll turns).storage ∧
      worker.run last (turns.map Turn.message ++ ending) =
        (worker.obeyAll turns).run last ending := by
  induction turns generalizing worker with
  | nil =>
    obtain ⟨turn, hmem, _⟩ := frames
    cases hmem
  | cons turn turns ih =>
    have hturn : turn.plain = true := plain turn List.mem_cons_self
    have hturns : ∀ turn ∈ turns, turn.plain = true :=
      fun turn hmem => plain turn (List.mem_cons_of_mem _ hmem)
    rw [List.map_cons, List.cons_append]
    cases asked : turn.frame? with
    | some frame =>
      obtain ⟨hplaying, hstorage, _⟩ :=
        playing_first h (loads turn List.mem_cons_self) battery asked
      have hsound' : sound (worker.obey turn).storage := by rwa [hstorage]
      obtain ⟨save', hall, hsound'', hrun⟩ :=
        playing_obeyAll keeps hplaying hsound' hturns last ending
      rw [run_message hplaying.ended, hrun]
      exact ⟨save', hall, hsound'', rfl⟩
    | none =>
      obtain ⟨hchosen, hstorage⟩ := chosen_obey h hturn asked
      have hsound' : sound (worker.obey turn).storage := by rwa [hstorage]
      have hframes : ∃ turn ∈ turns, turn.frame?.isSome = true := by
        obtain ⟨turn', hmem, hframe⟩ := frames
        obtain rfl | hmem := List.mem_cons.mp hmem
        · rw [asked] at hframe
          cases hframe
        · exact ⟨turn', hmem, hframe⟩
      obtain ⟨save', hall, hsound'', hrun⟩ := ih hchosen hsound' hturns
        (fun turn hmem => loads turn (List.mem_cons_of_mem _ hmem)) hframes
      rw [run_message hchosen.ended, hrun]
      exact ⟨save', hall, hsound'', rfl⟩

/-! ## The first frame that is played -/

/-- Until a frame is played, save RAM stays as it is. -/
theorem begun_of_playing (h : Playing image save worker) {turns : List Turn}
    (plain : ∀ turn ∈ turns, turn.plain = true) {start : Console}
    (first : (worker.begun turns).head? = some start) :
    ∃ cartridge, start.cartridge = some cartridge ∧ cartridge.image = image ∧
      cartridge.save = save := by
  induction turns generalizing worker with
  | nil => cases first
  | cons turn turns ih =>
    have hturns : ∀ turn ∈ turns, turn.plain = true :=
      fun turn hmem => plain turn (List.mem_cons_of_mem _ hmem)
    unfold begun at first
    cases hbegun : worker.console.begun? turn with
    | some start' =>
      rw [hbegun] at first
      cases first
      exact h.start hbegun
    | none =>
      rw [hbegun] at first
      exact ih (playing_still h (plain turn List.mem_cons_self) hbegun).1 hturns first

omit [Storage σ] in
theorem begun_asked (h : Playing image save worker) (fresh : worker.console.skipped = 0)
    {frame : (UInt8 × UInt8) × Bool} (asked : turn.frame? = some frame) :
    ∃ start, worker.console.begun? turn = some start := by
  obtain ⟨buttons, drawn⟩ := frame
  obtain ⟨⟨journal, start⟩, ready⟩ := Option.isSome_iff_exists.mp (h.ready turn.files)
  have hskipped : start.skipped < skipLimit := by
    by_contra hfull
    obtain ⟨_, _, rfl⟩ := Console.ready_full h.plugged ready (Nat.le_of_not_lt hfull)
    rw [fresh] at hfull
    exact hfull (by decide)
  refine ⟨start, Console.begun_eq_some.mpr ⟨buttons, drawn, journal, asked, ready, ?_⟩⟩
  simp [hskipped]

/-- A frame that is asked for is played, if none was skipped before. -/
theorem begun_of_frame (h : Playing image save worker) (fresh : worker.console.skipped = 0)
    {turns : List Turn} (plain : ∀ turn ∈ turns, turn.plain = true)
    (frames : 0 < turns.countP fun turn => turn.frame?.isSome) :
    (worker.begun turns).head?.isSome = true := by
  induction turns generalizing worker with
  | nil => cases frames
  | cons turn turns ih =>
    have hturns : ∀ turn ∈ turns, turn.plain = true :=
      fun turn hmem => plain turn (List.mem_cons_of_mem _ hmem)
    unfold begun
    cases hbegun : worker.console.begun? turn with
    | some start => rfl
    | none =>
      have noFrame : turn.frame? = none := by
        by_contra hframe
        obtain ⟨frame, asked⟩ := Option.ne_none_iff_exists'.mp hframe
        obtain ⟨start, hstart⟩ := begun_asked h fresh asked
        rw [hbegun] at hstart
        cases hstart
      obtain ⟨hplaying, _, hskipped⟩ := playing_still h (plain turn List.mem_cons_self) hbegun
      rw [List.countP_cons, noFrame] at frames
      exact ih hplaying (hskipped.trans fresh) hturns (by simpa using frames)

/-- From the choice of the cartridge on: the first frame that is played starts from the stored
    image, and with the second frame that is asked for one is played. -/
theorem begun_of_chosen (battery : cartridge.battery = true) (h : Chosen registry source worker)
    {turns : List Turn} (plain : ∀ turn ∈ turns, turn.plain = true)
    (loads : ∀ turn ∈ turns, source.load turn.files registry = .ok cartridge) :
    (∀ start, (worker.begun turns).head? = some start →
      ∃ plugged, start.cartridge = some plugged ∧ plugged.image = cartridge.image ∧
        plugged.save =
          cartridge.save.load (Storage.load worker.storage cartridge.image.key saveSize)) ∧
    (2 ≤ turns.countP (fun turn => turn.frame?.isSome) →
      (worker.begun turns).head?.isSome = true) := by
  induction turns generalizing worker with
  | nil =>
    refine ⟨fun start first => ?_, fun frames => ?_⟩
    · cases first
    · cases frames
  | cons turn turns ih =>
    have hturn : turn.plain = true := plain turn List.mem_cons_self
    have hturns : ∀ turn ∈ turns, turn.plain = true :=
      fun turn hmem => plain turn (List.mem_cons_of_mem _ hmem)
    have hready : worker.console.ready? turn.files = none := by
      unfold Console.ready?
      rw [h.on, h.load (loads turn List.mem_cons_self)]
      exact if_pos battery
    have hbegun : worker.console.begun? turn = none := by
      unfold Console.begun?
      rw [hready]
      cases turn.frame? with
      | none => rfl
      | some frame => rfl
    unfold begun
    rw [hbegun, List.countP_cons]
    cases asked : turn.frame? with
    | some frame =>
      obtain ⟨hplaying, _, hskipped⟩ :=
        playing_first h (loads turn List.mem_cons_self) battery asked
      refine ⟨fun start first => begun_of_playing hplaying hturns first, fun frames => ?_⟩
      exact begun_of_frame hplaying hskipped hturns (by simpa using frames)
    | none =>
      obtain ⟨hchosen, hstorage⟩ := chosen_obey h hturn asked
      have hrest := ih hchosen hturns fun turn hmem => loads turn (List.mem_cons_of_mem _ hmem)
      rw [hstorage] at hrest
      simpa using hrest

end

/-! ## Sessions -/

/-- What a worker receives from the choice of the cartridge on. -/
structure Session (registry : Registry) (source : Source) (cartridge : Cartridge) where
  /-- The files when the cartridge is chosen. -/
  early : Files
  turns : List Turn
  ending : List (Files × Message)
  /-- The files when the line goes dead. -/
  last : Files
  plain : ∀ turn ∈ turns, turn.plain = true
  loads : ∀ turn ∈ turns, source.load turn.files registry = .ok cartridge
  ends : Ends ending

section
variable {σ : Type} [Storage σ] {registry : Registry} {source : Source} {cartridge : Cartridge}

/-- A worker with a new console. -/
def fresh (registry : Registry) (storage : σ) : Worker σ := { console := { registry }, storage }

/-- The messages of a session. -/
def Session.messages (session : Session registry source cartridge) : List (Files × Message) :=
  (session.early, .execute (.insert source)) ::
    (session.turns.map Turn.message ++ session.ending)

/-- The worker after the session. -/
def Session.run (session : Session registry source cartridge) (storage : σ) : Worker σ :=
  (fresh registry storage).run session.last session.messages

/-- The consoles from which frames are played in the session. -/
def Session.begun (session : Session registry source cartridge) (storage : σ) : List Console :=
  (fresh registry storage).begun (⟨session.early, .insert source⟩ :: session.turns)

/-- What a session with a battery leaves in storage, and what the next session makes of it. -/
def Survives (kept : σ → Option Bytes) (registry : Registry) (source : Source)
    (cartridge : Cartridge) (storage : σ) : Prop :=
  ∀ session : Session registry source cartridge,
    (∃ turn ∈ session.turns, turn.frame?.isSome = true) →
    (session.run storage).ended = true ∧
    ∃ plugged, (session.run storage).console.cartridge = some plugged ∧
      plugged.image = cartridge.image ∧ plugged.save.bytes.size = 0x2000 ∧
      kept (session.run storage).storage = some plugged.save.bytes ∧
      ∀ next : Session registry source cartridge,
        (∀ start, (next.begun (session.run storage).storage).head? = some start →
          ∃ again, start.cartridge = some again ∧ again.image = cartridge.image ∧
            again.save.bytes = plugged.save.bytes) ∧
        (2 ≤ next.turns.countP (fun turn => turn.frame?.isSome) →
          (next.begun (session.run storage).storage).head?.isSome = true)

theorem chosen_fresh (session : Session registry source cartridge) (storage : σ) :
    Chosen registry source
        ((fresh registry storage).obey ⟨session.early, .insert source⟩) ∧
      ((fresh registry storage).obey ⟨session.early, .insert source⟩).storage = storage :=
  ⟨⟨rfl, rfl, rfl, rfl⟩, rfl⟩

theorem survives_of_keeps {kept : σ → Option Bytes} {sound : σ → Prop}
    (keeps : Storage.Keeps cartridge.image.key kept sound) (battery : cartridge.battery = true)
    {storage : σ} (hsound : sound storage) :
    Survives kept registry source cartridge storage := by
  intro session frames
  let insert : Turn := ⟨session.early, .insert source⟩
  obtain ⟨hchosen, hstorage⟩ := chosen_fresh session storage
  have hsound' : sound ((fresh registry storage).obey insert).storage := by rwa [hstorage]
  obtain ⟨save, hplaying, hplayed, hrun⟩ := chosen_obeyAll keeps battery hchosen hsound'
    session.plain session.loads frames session.last session.ending
  have hsession : session.run storage =
      (((fresh registry storage).obey insert).obeyAll session.turns).run session.last
        session.ending := by
    have hfirst : session.run storage = ((fresh registry storage).obey insert).run session.last
        (session.turns.map Turn.message ++ session.ending) :=
      run_message hchosen.ended session.last _
    rw [hfirst, hrun]
  have hstored := stored_ending hplaying battery session.last session.ends
  rw [← hsession] at hstored
  obtain ⟨plugged, hplugged, himage, rfl⟩ := hstored.cartridge
  have hkept := (keeps.save _ plugged.save.bytes hplayed).1
  rw [← hstored.storage] at hkept
  refine ⟨hstored.ended, plugged, hplugged, himage, plugged.save.size_bytes, hkept, ?_⟩
  intro next
  obtain ⟨hnext, hnextStorage⟩ := chosen_fresh next (session.run storage).storage
  obtain ⟨hfirst, hsecond⟩ := begun_of_chosen battery hnext next.plain next.loads
  refine ⟨fun start first => ?_, hsecond⟩
  obtain ⟨again, hagain, hagainImage, hsave⟩ := hfirst start first
  refine ⟨again, hagain, hagainImage, ?_⟩
  have hloaded : Storage.load (session.run storage).storage cartridge.image.key saveSize =
      plugged.save.bytes := by
    rw [keeps.load, hkept, Option.getD_some, ← plugged.save.size_bytes]
    exact Bytes.resize_size _ _
  rw [hsave, hnextStorage, hloaded]
  exact SaveRam.bytes_load _ plugged.save.size_bytes

/-- The session, twice in a row: it leaves a save RAM in storage, and a frame is played in the
    second one, the first of them from that save RAM. -/
def Repeats (kept : σ → Option Bytes) (session : Session registry source cartridge)
    (storage : σ) : Prop :=
  ∃ bytes start again, kept (session.run storage).storage = some bytes ∧ bytes.size = 0x2000 ∧
    (session.begun (session.run storage).storage).head? = some start ∧
    start.cartridge = some again ∧ again.save.bytes = bytes

/-- Two frames are enough for the second time to play one. -/
theorem repeats_of_survives {kept : σ → Option Bytes} {storage : σ}
    (survives : Survives kept registry source cartridge storage)
    {session : Session registry source cartridge}
    (frames : 2 ≤ session.turns.countP fun turn => turn.frame?.isSome) :
    Repeats kept session storage := by
  have hframe : ∃ turn ∈ session.turns, turn.frame?.isSome = true :=
    List.countP_pos_iff.mp (Nat.lt_of_lt_of_le (by decide) frames)
  obtain ⟨_, plugged, _, _, hsize, hkept, hnext⟩ := survives session hframe
  obtain ⟨hfirst, hsecond⟩ := hnext session
  obtain ⟨start, hstart⟩ := Option.isSome_iff_exists.mp (hsecond frames)
  obtain ⟨again, hagain, _, hbytes⟩ := hfirst start hstart
  exact ⟨plugged.save.bytes, start, again, hkept, hsize, hstart, hagain, hbytes⟩

end

/-- A session with a cartridge that has a battery, in which a frame was asked for, ends with the
    cartridge's save RAM in storage, whether storage is in memory or in a directory where its
    file can be written; and the first frame that is played in the next session starts from
    it. -/
theorem save_ram_survives (registry : Registry) (source : Source) {cartridge : Cartridge}
    (battery : cartridge.battery = true) :
    (∀ storage : MemoryStorage,
      Survives (fun storage => storage.get? cartridge.image.key) registry source cartridge
        storage) ∧
    (∀ directory : SaveDirectory, directory.Writable cartridge.image.key →
      Survives (fun directory => directory.get? cartridge.image.key) registry source cartridge
        directory) := by
  constructor
  · intro storage
    exact survives_of_keeps (MemoryStorage.keeps cartridge.image.key) battery trivial
  · intro directory writable
    exact survives_of_keeps (SaveDirectory.keeps cartridge.image.key) battery writable

/-- Two frames, and then the owner stops the worker; the same again. Storage is in memory, or in a
    directory that is not there yet. -/
theorem save_ram_survives_of_header :
    ∃ (cartridge : Cartridge) (session : Session {} (.image Console.batteryHeader) cartridge),
      Repeats (fun storage => storage.get? cartridge.image.key) session ({} : MemoryStorage) ∧
      Repeats (fun directory => directory.get? cartridge.image.key) session
        ({ names := ["saves"] } : SaveDirectory) := by
  let files : Files := fun _ => .ok #[]
  let frame : Turn := ⟨files, .frame (0, 0)⟩
  have hload : ∃ cartridge,
      (Source.image Console.batteryHeader).load files {} = .ok cartridge ∧
        cartridge.battery = true := ⟨_, rfl, rfl⟩
  obtain ⟨cartridge, load, battery⟩ := hload
  let session : Session {} (.image Console.batteryHeader) cartridge :=
    { early := files
      turns := [frame, frame]
      ending := [(files, .stop)]
      last := files
      plain := by simp [frame, Turn.plain]
      loads := by simp [frame, load]
      ends := .inr ⟨files, [], .inr rfl⟩ }
  have frames : 2 ≤ session.turns.countP fun turn => turn.frame?.isSome := Nat.le_refl 2
  obtain ⟨inMemory, inDirectory⟩ :=
    save_ram_survives {} (.image Console.batteryHeader) battery
  have writable := SaveDirectory.writable_saves (plainKey_of_load load)
  exact ⟨cartridge, session, repeats_of_survives (inMemory {}) frames,
    repeats_of_survives (inDirectory _ writable) frames⟩

end Worker
end Nes
