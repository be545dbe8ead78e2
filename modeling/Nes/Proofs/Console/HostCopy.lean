/-
  The host's copy of save RAM.

  From the moment the stored image has come, the host has a copy of save RAM: that image, filled
  with zeros or cut to size, and later what it was handed out last (`storedAfter`). The schedule
  only compares counts of writes, which wrap. `Tracks` ties the three together: save RAM is what
  `count` writes made of the host's copy, and the schedule holds the count of that copy. Every
  request keeps it (`Tracks.take`), with the writes counted by `unstoredBy`.

  So the copy is current whenever the schedule takes it to be, unless there were 2³² writes since
  (`Tracks.current`). And save RAM cannot be out of date for `staleLimit` frames in a row without
  being handed out (`Tracks.stale_after`). `host_copy` puts it together.

  A program that stores and jumps back (`Circles`) writes in every frame, so all its frames end out
  of date (`Circles.steps`), and its save RAM is handed out in time all the same.
-/
import Nes.Proofs.Console.StoreLoop
import Nes.Proofs.Console.UnsavedData
import Nes.Proofs.Host.Sessions
import Nes.Proofs.Save.Streaks

namespace Nes

namespace Console

/-! ## Writes since the last copy -/

/-- How often a request writes to save RAM, by the count of writes. -/
def writesBy (console : Console) (turn : Turn) : Nat :=
  match console.battery?, (console.take turn).2.battery? with
  | some before, some after => (after.save.writes - before.save.writes).toNat
  | _, _ => 0

/-- The writes that came after the host's copy, if there were `count` before a request. -/
def unstoredBy (console : Console) (count : Nat) (turn : Turn) : Nat :=
  match savedImage? (storageOf (console.take turn).1) with
  | some _ => 0
  | none => count + console.writesBy turn

/-- The writes that came after the host's copy, after a sequence of requests. -/
def unstoredAfter (console : Console) (count : Nat) : List Turn → Nat
  | [] => count
  | turn :: turns => unstoredAfter (console.take turn).2 (console.unstoredBy count turn) turns

/-- Save RAM in the frame that a request plays, if it plays one, when `lines` of it are over. -/
def midFrame? (console : Console) (turn : Turn) (lines : Nat) : Option SaveRam :=
  match turn.frame?, console.begun? turn with
  | some (buttons, drawn), some start =>
    start.cartridge.map fun cartridge =>
      ((List.range lines).foldl Scan.line
        (opening start.cpu start.hardware cartridge buttons drawn)).machine.bus.cartridge.save
  | _, _ => none

/-- Whether a request plays a frame at whose end save RAM is out of date. -/
def endsStale (console : Console) (turn : Turn) : Bool :=
  match console.midFrame? turn frameLines with
  | some save => console.schedule.isStale save.writes
  | none => false

/-- The cartridge runs, the host has `image` of its save RAM, and `count` writes came after. -/
structure Tracks (console : Console) (image : Bytes) (count : Nat) (cartridge : Cartridge) :
    Prop where
  on : console.phase = .running ∨ console.phase = .reset
  plugged : console.battery? = some cartridge
  copied : ∃ save : SaveRam, save.bytes = image ∧ save.writes = console.schedule.stored ∧
    save.Written count cartridge.save

section
variable {console : Console} {image : Bytes} {count : Nat} {cartridge : Cartridge} {turn : Turn}

/-- When the stored image has come, the host has it. -/
theorem tracks_accepts (on : console.phase = .awaitStorage)
    (plugged : console.battery? = some cartridge) (files : Files) (bytes : Bytes) :
    Tracks (console.take ⟨files, .storage bytes⟩).2 (bytes.resize saveSize 0) 0
      { cartridge with save := cartridge.save.load bytes } := by
  obtain ⟨hc, battery⟩ := battery_eq_some.mp plugged
  rw [take_accepts on hc]
  refine ⟨.inl rfl, battery_eq_some.mpr ⟨rfl, battery⟩, ?_⟩
  exact ⟨_, cartridge.save.bytes_load_resize bytes, rfl, .none⟩

theorem Tracks.pluggedIn (h : Tracks console image count cartridge) : PluggedIn console := by
  intro _
  rw [(battery_eq_some.mp h.plugged).1]
  rfl

theorem Tracks.ne_powerOn (h : Tracks console image count cartridge) :
    console.phase ≠ .powerOn ∧ console.phase ≠ .awaitStorage ∧ console.phase ≠ .halted := by
  rcases h.on with on | on <;> rw [on] <;> decide

/-- If fewer than 2³² writes came after the host's copy, it is current whenever the schedule takes
    it to be: also after `more` writes. -/
theorem Tracks.current (h : Tracks console image count cartridge) {more : Nat} {save : SaveRam}
    (written : cartridge.save.Written more save) (few : count + more < 2 ^ 32)
    (fresh : console.schedule.isStale save.writes = false) : save.bytes = image := by
  obtain ⟨copy, rfl, hstored, hcopy⟩ := h.copied
  have hsame : save.writes = copy.writes := by
    rw [hstored]
    simpa [SaveSchedule.isStale] using fresh
  rw [(hcopy.trans written).eq_of_writes few hsame]

/-! ## Frames -/

/-- The console that a frame starts from has the same cartridge, but for its board. -/
theorem Tracks.ready (h : Tracks console image count cartridge) {files : Files}
    {journal : Journal} {start : Console} (ready : console.ready? files = some (journal, start)) :
    ∃ board irq, start.battery? = some { cartridge with board, irq } ∧
      start.schedule = console.schedule ∧ start.phase = .running := by
  obtain ⟨hc, battery⟩ := battery_eq_some.mp h.plugged
  obtain ⟨_, on, _⟩ | ⟨_, hreset⟩ | ⟨on, _, rfl⟩ := ready_cases ready
  · exact absurd on h.ne_powerOn.1
  · obtain ⟨board, irq, hcartridge⟩ := pressReset_plugged hc
    rw [hreset] at hcartridge
    refine ⟨board, irq, battery_eq_some.mpr ⟨hcartridge, battery⟩, ?_⟩
    rw [pressReset_some hc] at hreset
    cases hreset
    exact ⟨rfl, rfl⟩
  · exact ⟨cartridge.board, cartridge.irq, h.plugged, rfl, on⟩

/-- While a frame lasts, save RAM is only written by the CPU, and not often enough for the count
    to go around. -/
theorem Tracks.midFrame (h : Tracks console image count cartridge) {lines : Nat}
    (hlines : lines ≤ frameLines) {save : SaveRam}
    (mid : console.midFrame? turn lines = some save) :
    ∃ more, more < 2 ^ 32 ∧ cartridge.save.Written more save := by
  unfold midFrame? at mid
  cases asked : turn.frame? with
  | none => simp [asked] at mid
  | some frame =>
    cases begun : console.begun? turn with
    | none => simp [asked, begun] at mid
    | some start =>
      obtain ⟨buttons, drawn⟩ := frame
      obtain ⟨_, _, _, _, ready, _⟩ := begun_eq_some.mp begun
      obtain ⟨board, irq, hstart, _⟩ := h.ready ready
      rw [asked, begun] at mid
      dsimp only at mid
      rw [(battery_eq_some.mp hstart).1, Option.map_some, Option.some.injEq] at mid
      obtain ⟨more, hmore, hwritten⟩ := Scan.within_frame
        (opening start.cpu start.hardware { cartridge with board, irq } buttons drawn) hlines
      rw [mid] at hwritten
      have hbound : Scan.lineWrites * frameLines < 2 ^ 32 := by decide
      exact ⟨more, Nat.lt_of_le_of_lt hmore hbound, hwritten⟩

/-- What is handed out at the end of a frame, if a save is due. -/
def handedOut (cartridge : Cartridge) : (due : Bool) → List StorageRequest
  | true => [.save cartridge.image.key cartridge.save.bytes]
  | false => []

/-- The end of a frame follows the schedule. -/
theorem endFrame_battery (plugged : console.battery? = some cartridge) :
    console.endFrame =
      (handedOut cartridge (console.schedule.endFrame cartridge.save.writes).1,
        { console with schedule := (console.schedule.endFrame cartridge.save.writes).2 }) := by
  unfold endFrame
  rw [plugged]
  dsimp only
  cases due : (console.schedule.endFrame cartridge.save.writes).1 with
  | false => rfl
  | true =>
    rw [SaveSchedule.endFrame_due due, if_pos rfl]
    let ended : Console := { console with schedule := .fresh cartridge.save.writes }
    exact @save_eq ended cartridge plugged

theorem playCounted_battery {start : Console} (plugged : start.battery? = some cartridge)
    (buttons : UInt8 × UInt8) (drawn : Bool) {scan : Scan}
    (frame : (opening start.cpu start.hardware cartridge buttons drawn).frame = scan) :
    let kept := scan.machine.bus.cartridge
    kept.image = cartridge.image ∧ kept.battery = true ∧
      (start.playCounted buttons drawn).1.storage =
        handedOut kept (start.schedule.endFrame kept.save.writes).1 ∧
      (start.playCounted buttons drawn).2 =
        { start.install scan.machine with
          skipped := if drawn then 0 else start.skipped + 1
          schedule := (start.schedule.endFrame kept.save.writes).2 } := by
  obtain ⟨hc, battery⟩ := battery_eq_some.mp plugged
  have himage := (run_opening start.cpu start.hardware cartridge buttons drawn).image_eq.1
  rw [frame] at himage
  have hbattery : scan.machine.bus.cartridge.battery = true := by
    unfold Cartridge.battery at battery ⊢
    rw [himage]
    exact battery
  let counted : Console := { start with skipped := if drawn then 0 else start.skipped + 1 }
  have hend := @endFrame_battery (counted.install scan.machine) _
    (battery_eq_some.mpr ⟨rfl, hbattery⟩)
  rw [playCounted_some hc buttons drawn frame, hend]
  exact ⟨himage, hbattery, rfl, rfl⟩

/-- A frame that is played, with the schedule at its end. -/
theorem Tracks.plays (h : Tracks console image count cartridge) {start : Console}
    (begun : console.begun? turn = some start) :
    ∃ kept, console.midFrame? turn frameLines = some kept.save ∧
      kept.image = cartridge.image ∧
      storageOf (console.take turn).1 =
        handedOut kept (console.schedule.endFrame kept.save.writes).1 ∧
      (console.take turn).2.battery? = some kept ∧
      (console.take turn).2.phase = .running ∧
      (console.take turn).2.schedule = (console.schedule.endFrame kept.save.writes).2 := by
  obtain ⟨buttons, drawn, journal, asked, ready, due⟩ := begun_eq_some.mp begun
  obtain ⟨board, irq, hbattery, hschedule, hphase⟩ := h.ready ready
  have hc := (battery_eq_some.mp hbattery).1
  obtain ⟨scan, frame⟩ : ∃ scan, (opening start.cpu start.hardware { cartridge with board, irq }
    buttons drawn).frame = scan := ⟨_, rfl⟩
  have hmid : console.midFrame? turn frameLines = some scan.machine.bus.cartridge.save := by
    rw [← frame]
    unfold midFrame? Scan.frame
    rw [asked, begun]
    dsimp only
    rw [hc, Option.map_some]
  obtain ⟨himage, battery, hstorage, hplay⟩ := playCounted_battery hbattery buttons drawn frame
  rw [hschedule] at hstorage hplay
  have htake : console.take turn =
      (.ok { (start.playCounted buttons drawn).1 with
             journal := journal ++ (start.playCounted buttons drawn).1.journal },
        (start.playCounted buttons drawn).2) := by
    rw [take_ready asked ready, advance_due due]
  rw [htake, hplay]
  exact ⟨scan.machine.bus.cartridge, hmid, himage, hstorage, battery_eq_some.mpr ⟨rfl, battery⟩,
    hphase, rfl⟩

/-! ## Requests -/

/-- A request that plays no frame changes nothing here. -/
theorem Tracks.still (h : Tracks console image count cartridge) (plain : turn.plain = true)
    (begun : console.begun? turn = none) :
    storageOf (console.take turn).1 = [] ∧ (console.take turn).2.battery? = some cartridge ∧
      (console.take turn).2.schedule = console.schedule ∧
      ((console.take turn).2.phase = .running ∨ (console.take turn).2.phase = .reset) := by
  obtain ⟨hpowerOn, hawait, hhalted⟩ := h.ne_powerOn
  have reaction := take_reaction console turn
  generalize console.take turn = result at reaction ⊢
  cases reaction with
  | halted on => exact absurd on hhalted
  | waits _ on => exact absurd on hawait
  | fails _ on | loads _ on => exact absurd on hpowerOn
  | drops _ ready full =>
    obtain ⟨on, _, rfl⟩ := ready_full h.pluggedIn ready full
    exact ⟨rfl, h.plugged, rfl, .inl on⟩
  | plays asked ready due =>
    rw [begun_eq_some.mpr ⟨_, _, _, asked, ready, due⟩] at begun
    cases begun
  | presses =>
    refine ⟨rfl, h.plugged, rfl, .inr ?_⟩
    rcases h.on with on | on <;> simp [on]
  | stops asked | chooses asked =>
    unfold Turn.plain at plain
    rw [asked] at plain
    cases plain
  | accepts =>
    rw [acceptStorage_of_ne hawait]
    exact ⟨rfl, h.plugged, rfl, h.on⟩

/-- What the host has after a request: what it was handed out, or else what it had. -/
theorem Tracks.storedBy_eq (h : Tracks console image count cartridge) (stored : Option Bytes) :
    console.storedBy stored turn = (savedImage? (storageOf (console.take turn).1)).or stored := by
  obtain ⟨hpowerOn, hawait, _⟩ := h.ne_powerOn
  have hplugs : console.plugsIn turn = false := by simp [plugsIn, hpowerOn]
  have haccepts : console.accepts turn = false := by
    unfold accepts
    split
    · simp [hawait]
    · rfl
  unfold storedBy
  dsimp only
  rw [hplugs, haccepts]
  rfl

/-- Every request that neither chooses a cartridge nor stops the console keeps track. -/
theorem Tracks.take (h : Tracks console image count cartridge) (plain : turn.plain = true) :
    ∃ image' cartridge', console.storedBy (some image) turn = some image' ∧
      cartridge'.image = cartridge.image ∧
      Tracks (console.take turn).2 image' (console.unstoredBy count turn) cartridge' := by
  rw [h.storedBy_eq]
  unfold unstoredBy writesBy
  cases begun : console.begun? turn with
  | none =>
    obtain ⟨hstorage, hbattery, hschedule, hphase⟩ := h.still plain begun
    rw [hstorage, h.plugged, hbattery]
    refine ⟨image, cartridge, rfl, rfl, hphase, hbattery, ?_⟩
    rw [hschedule]
    simpa [savedImage?] using h.copied
  | some start =>
    obtain ⟨kept, hmid, himage, hstorage, hbattery, hphase, hschedule⟩ := h.plays begun
    obtain ⟨more, hmore, hwritten⟩ := h.midFrame (Nat.le_refl _) hmid
    rw [hstorage, h.plugged, hbattery]
    cases due : (console.schedule.endFrame kept.save.writes).1 with
    | true =>
      refine ⟨kept.save.bytes, kept, rfl, himage, .inl hphase, hbattery, ?_⟩
      rw [hschedule, SaveSchedule.endFrame_due due]
      exact ⟨kept.save, rfl, rfl, .none⟩
    | false =>
      obtain ⟨copy, hcopy, hstored, hcopied⟩ := h.copied
      refine ⟨image, kept, rfl, himage, .inl hphase, hbattery, copy, hcopy, ?_, ?_⟩
      · rw [hschedule, SaveSchedule.endFrame_stored due]
        exact hstored
      · have hcount := hwritten.count_eq hmore
        simpa [handedOut, savedImage?, hcount] using hcopied.trans hwritten

/-- So does a sequence of them. -/
theorem Tracks.after (h : Tracks console image count cartridge) {turns : List Turn}
    (plain : ∀ turn ∈ turns, turn.plain = true) :
    ∃ image' cartridge', console.storedAfter (some image) turns = some image' ∧
      cartridge'.image = cartridge.image ∧
      Tracks (console.after turns) image' (console.unstoredAfter count turns) cartridge' := by
  induction turns generalizing console image count cartridge with
  | nil => exact ⟨image, cartridge, rfl, rfl, h⟩
  | cons turn turns ih =>
    obtain ⟨hturn, hturns⟩ := List.forall_mem_cons.mp plain
    obtain ⟨image', cartridge', hstored, himage, htake⟩ := h.take hturn
    obtain ⟨image'', cartridge'', hstored', himage', hafter⟩ := ih htake hturns
    refine ⟨image'', cartridge'', ?_, himage'.trans himage, hafter⟩
    unfold storedAfter
    rw [hstored]
    exact hstored'

/-! ## Out of date for too long -/

/-- A frame that ends out of date and hands nothing out is counted by the schedule. -/
theorem Tracks.stale_take (h : Tracks console image count cartridge) {start : Console}
    (begun : console.begun? turn = some start) (stale : console.endsStale turn = true)
    (nothing : SavesNothing (console.take turn).1) :
    (console.take turn).2.schedule.stale = console.schedule.stale + 1 ∧
      console.schedule.stale + 1 < staleLimit := by
  obtain ⟨kept, hmid, _, hstorage, _, _, hschedule⟩ := h.plays begun
  have hstale : console.schedule.isStale kept.save.writes = true := by
    unfold endsStale at stale
    rw [hmid] at stale
    exact stale
  have early : (console.schedule.endFrame kept.save.writes).1 = false := by
    cases due : (console.schedule.endFrame kept.save.writes).1 with
    | false => rfl
    | true =>
      rw [due] at hstorage
      refine absurd ?_ (nothing kept.image.key kept.save.bytes)
      rw [hstorage]
      exact List.mem_singleton_self _
  rw [hschedule]
  exact SaveSchedule.endFrame_stale hstale early

/-- If all the frames end out of date and nothing is handed out, there are not many. -/
theorem Tracks.stale_after (h : Tracks console image count cartridge) {turns : List Turn}
    (plain : ∀ turn ∈ turns, turn.plain = true)
    (stale : ∀ step ∈ console.steps turns,
      (step.1.begun? step.2).isSome = true → step.1.endsStale step.2 = true)
    (nothing : ∀ answer ∈ console.answers turns, SavesNothing answer) :
    let played := (console.steps turns).countP fun step => (step.1.begun? step.2).isSome
    played = 0 ∨ console.schedule.stale + played < staleLimit := by
  induction turns generalizing console image count cartridge with
  | nil => exact .inl rfl
  | cons turn turns ih =>
    obtain ⟨hturn, hturns⟩ := List.forall_mem_cons.mp plain
    obtain ⟨hstale, hstales⟩ := List.forall_mem_cons.mp stale
    obtain ⟨hnothing, hnothings⟩ := List.forall_mem_cons.mp nothing
    obtain ⟨_, _, _, _, htake⟩ := h.take hturn
    have hlater := ih htake hturns hstales hnothings
    dsimp only at hlater ⊢
    unfold steps
    rw [List.countP_cons]
    dsimp only
    cases begun : console.begun? turn with
    | none =>
      obtain ⟨_, _, hschedule, _⟩ := h.still hturn begun
      rw [hschedule] at hlater
      exact hlater
    | some start =>
      have hstale : console.endsStale turn = true := hstale (by simp [begun])
      obtain ⟨hcount, hlimit⟩ := h.stale_take begun hstale hnothing
      simp only [Option.isSome_some, if_true]
      omega

end

/-! ## The host's copy -/

/-- A cartridge with a battery, from the moment its stored image comes, through any requests that
    neither choose another cartridge nor stop the console.

    Save RAM is what the writes since made of the host's copy. If these are fewer than 2³², the
    copy is current whenever the schedule takes it to be, between requests and within a frame.
    What is handed out is the save RAM of that moment. And of `staleLimit` frames in a row that
    end out of date, one hands it out. -/
theorem host_copy {console : Console} {cartridge : Cartridge} (on : console.phase = .awaitStorage)
    (plugged : console.battery? = some cartridge) (files : Files) (bytes : Bytes)
    {turns : List Turn} (plain : ∀ turn ∈ turns, turn.plain = true) :
    let start := (console.take ⟨files, .storage bytes⟩).2
    let now := start.after turns
    let unstored := start.unstoredAfter 0 turns
    ∃ image kept, start.storedAfter (some (bytes.resize saveSize 0)) turns = some image ∧
      now.battery? = some kept ∧ kept.image = cartridge.image ∧
      (∃ copy : SaveRam, copy.bytes = image ∧ copy.Written unstored kept.save) ∧
      (unstored < 2 ^ 32 → now.schedule.isStale kept.save.writes = false →
        kept.save.bytes = image) ∧
      (∀ turn lines save, lines ≤ frameLines → now.midFrame? turn lines = some save →
        unstored + (save.writes - kept.save.writes).toNat < 2 ^ 32 →
        now.schedule.isStale save.writes = false → save.bytes = image) ∧
      (∀ turn, HandsOutPlugged (storageOf (now.take turn).1) (now.take turn).2) ∧
      ∀ more : List Turn, (∀ turn ∈ more, turn.plain = true) →
        (∀ step ∈ now.steps more,
          (step.1.begun? step.2).isSome = true → step.1.endsStale step.2 = true) →
        staleLimit ≤ (now.steps more).countP (fun step => (step.1.begun? step.2).isSome) →
        ∃ answer ∈ now.answers more, ∃ key data, .save key data ∈ storageOf answer := by
  intro start now unstored
  have hstart : Tracks start (bytes.resize saveSize 0) 0 _ := tracks_accepts on plugged files bytes
  obtain ⟨image, kept, hstored, himage, hafter⟩ := hstart.after plain
  have hnow : Tracks now image unstored kept := hafter
  obtain ⟨copy, hcopy, _, hwritten⟩ := hnow.copied
  refine ⟨image, kept, hstored, hnow.plugged, himage, ⟨copy, hcopy, hwritten⟩, ?_, ?_,
    fun turn => handsOutPlugged_take now turn, ?_⟩
  · intro few fresh
    exact hnow.current .none few fresh
  · intro turn lines save hlines mid few fresh
    obtain ⟨more, hmore, hmid⟩ := hnow.midFrame hlines mid
    rw [hmid.count_eq hmore] at few
    exact hnow.current hmid few fresh
  · intro more hmore stale hplayed
    by_contra hnone
    have nothing : ∀ answer ∈ now.answers more, SavesNothing answer := by
      intro answer hanswer key data hmem
      exact hnone ⟨answer, hanswer, key, data, hmem⟩
    have hfew := hnow.stale_after hmore stale nothing
    dsimp only at hfew
    unfold staleLimit at hplayed hfew
    omega

/-! ## A program that writes without end -/

/-- The cartridge runs a program that stores A and jumps back. -/
structure Circles (console : Console) (image : Image) (start addr : UInt16) (offset : Nat)
    (cartridge : Cartridge) : Prop where
  on : console.phase = .running
  plugged : console.battery? = some cartridge
  circling : ∃ jumping, Machine.Circling image start addr offset cartridge.save jumping
    ⟨console.cpu, .plugged console.hardware cartridge⟩
  onTime : console.OnTime

section
variable {console : Console} {image : Image} {start addr : UInt16} {offset : Nat}
  {cartridge : Cartridge}

/-- Each frame writes to save RAM, and the program goes on. -/
theorem Circles.take (h : Circles console image start addr offset cartridge) (files : Files)
    (buttons : UInt8 × UInt8) :
    let turn : Turn := ⟨files, .frame buttons⟩
    console.begun? turn = some console ∧
      ∃ kept count, 0 < count ∧ count ≤ Machine.lineSteps * frameLines ∧
        cartridge.save.Written count kept.save ∧
        console.midFrame? turn frameLines = some kept.save ∧
        Circles (console.take turn).2 image start addr offset kept := by
  intro turn
  have hc := (battery_eq_some.mp h.plugged).1
  have ready : console.ready? files = some (#[], console) := by
    unfold ready?
    rw [h.on]
  have begun : console.begun? turn = some console :=
    begun_eq_some.mpr ⟨buttons, true, #[], rfl, ready, rfl⟩
  obtain ⟨jumping, hcircling⟩ := h.circling
  have hopening : Machine.Circling image start addr offset cartridge.save jumping
      (opening console.cpu console.hardware cartridge buttons true).machine :=
    ⟨⟨System.resting_mapIo hcircling.resting (·.setButtons buttons), hcircling.masked,
      hcircling.pending⟩, hcircling.program, hcircling.pc_eq⟩
  obtain ⟨count, stored, jumping', hsome, hfew, hwritten, hframe⟩ :=
    Scan.circling_frame hopening ⟨h.onTime.stall_eq, h.onTime.cycles_le⟩
  obtain ⟨scan, frame⟩ : ∃ scan,
    (opening console.cpu console.hardware cartridge buttons true).frame = scan := ⟨_, rfl⟩
  have hmid : console.midFrame? turn frameLines = some scan.machine.bus.cartridge.save := by
    rw [← frame]
    unfold midFrame? Scan.frame
    rw [begun]
    dsimp only [turn, Turn.frame?]
    rw [hc, Option.map_some]
  obtain ⟨_, battery, _, hplay⟩ := playCounted_battery h.plugged buttons true frame
  have onTime := h.onTime.take turn
  have htake : (console.take turn).2 = (console.playCounted buttons true).2 := by
    rw [@take_ready console console turn buttons true #[] rfl ready,
      @advance_due console true rfl buttons]
  rw [frame] at hframe
  rw [htake, hplay] at onTime ⊢
  have hsave := hframe.resting.save_eq
  refine ⟨begun, scan.machine.bus.cartridge, count, hsome, hfew, hsave ▸ hwritten, hmid, h.on,
    battery_eq_some.mpr ⟨rfl, battery⟩, ⟨jumping', ?_⟩, onTime⟩
  rw [hsave]
  exact ⟨⟨System.resting_forget hframe.resting, hframe.masked, hframe.pending⟩, hframe.program,
    hframe.pc_eq⟩

/-- All frames that such a program plays end out of date, as long as the count of writes does not
    go around. -/
theorem Circles.steps (h : Circles console image start addr offset cartridge) {saved : Bytes}
    {count : Nat} (tracks : Tracks console saved count cartridge) {turns : List Turn}
    (frames : ∀ turn ∈ turns, ∃ files buttons, turn = ⟨files, .frame buttons⟩)
    (few : count + Machine.lineSteps * frameLines * turns.length < 2 ^ 32) :
    ∀ step ∈ console.steps turns,
      (step.1.begun? step.2).isSome = true ∧ step.1.endsStale step.2 = true := by
  induction turns generalizing console cartridge saved count with
  | nil => exact fun step hmem => absurd hmem List.not_mem_nil
  | cons turn turns ih =>
    obtain ⟨⟨files, buttons, hturn⟩, hturns⟩ := List.forall_mem_cons.mp frames
    obtain ⟨begun, kept, more, hsome, hmost, hwritten, hmid, hnext⟩ := h.take files buttons
    rw [← hturn] at begun hmid hnext
    rw [List.length_cons, Nat.mul_succ] at few
    -- the host's copy is `count + more` writes behind
    have hstale : console.endsStale turn = true := by
      obtain ⟨copy, _, hstored, hcopy⟩ := tracks.copied
      have hbehind := (hcopy.trans hwritten).count_eq (by omega)
      unfold endsStale
      rw [hmid]
      by_contra hfresh
      have hsame : kept.save.writes = copy.writes := by
        rw [hstored]
        simpa [SaveSchedule.isStale] using hfresh
      rw [hsame, UInt32.sub_self] at hbehind
      have hzero : (0 : UInt32).toNat = 0 := rfl
      omega
    have plain : turn.plain = true := by
      rw [hturn]
      rfl
    obtain ⟨_, cartridge', _, _, htracks⟩ := tracks.take plain
    obtain rfl : cartridge' = kept := Option.some.inj (htracks.plugged.symm.trans hnext.plugged)
    have hcount : console.unstoredBy count turn ≤ count + more := by
      unfold unstoredBy writesBy
      rw [h.plugged, hnext.plugged]
      split
      · exact Nat.zero_le _
      · exact Nat.le_of_eq (congrArg (count + ·) (hwritten.count_eq (by omega)))
    refine List.forall_mem_cons.mpr ⟨⟨?_, hstale⟩, ih hnext htracks hturns (by omega)⟩
    exact Option.isSome_of_mem begun

/-- A ROM with such a program is plugged in, and its stored image comes. -/
theorem circles_accepts {registry : Registry} {bytes : Bytes} (sized : image.Sized)
    (load : Cartridge.load registry bytes none = .ok (.ofImage image .nrom))
    (battery : image.header.battery = true)
    (low : image.shown? resetVector = some (lowByte start))
    (high : image.shown? (resetVector + 1) = some (highByte start))
    (program : image.Stores start start addr offset) (files : Files) (buttons : UInt8 × UInt8)
    (stored : Bytes) :
    let turns : List Turn := [⟨files, .insert (.image bytes)⟩, ⟨files, .frame buttons⟩]
    let waiting := ({ registry } : Console).after turns
    waiting.phase = .awaitStorage ∧ ∃ cartridge kept, waiting.battery? = some cartridge ∧
      Circles (waiting.take ⟨files, .storage stored⟩).2 image start addr offset kept := by
  intro turns waiting
  let frame : Turn := ⟨files, .frame buttons⟩
  let chosen : Console := { registry, source := some (.image bytes) }
  have hnew : ({ registry } : Console).phase ≠ .halted := fun h => nomatch h
  have hinsert : ({ registry } : Console).take ⟨files, .insert (.image bytes)⟩ = (.ok {}, chosen) :=
    take_insert hnew files (.image bytes)
  have hload : chosen.chosen frame.files = .ok (.ofImage image .nrom) := load
  obtain ⟨_, cartridge, hwaiting, on, hbegins⟩ :=
    @begins_plugsIn chosen image start sized battery low high frame _ rfl rfl hload
  have hafter : waiting = (chosen.take frame).2 := by
    simp only [waiting, turns, after_cons, after_nil, hinsert, frame]
  have onTime := (onTime_after registry turns).take ⟨files, .storage stored⟩
  obtain ⟨running, kept, haccept, hruns, _, hplays⟩ := begins_accepts hbegins on files stored
  have hbattery {cartridge : Cartridge} (himage : cartridge.image = image) :
      cartridge.battery = true := by
    unfold Cartridge.battery
    rw [himage]
    exact battery
  have htake : (waiting.take ⟨files, .storage stored⟩).2 = running := by
    rw [hafter, hwaiting, haccept]
  rw [htake] at onTime ⊢
  rw [hafter, hwaiting]
  refine ⟨on, cartridge, kept, battery_eq_some.mpr
    ⟨hbegins.plugged, hbattery hbegins.calm.resting.banked.image_eq⟩, hruns, battery_eq_some.mpr
    ⟨hplays.plugged, hbattery hplays.calm.resting.banked.image_eq⟩, ⟨false, ?_⟩, onTime⟩
  have hsave : kept.save = _ := hplays.calm.resting.save_eq
  rw [hsave]
  exact ⟨hplays.calm, program, hplays.pc⟩

/-- With no writes since the host's copy, the schedule takes it to be current. -/
theorem Tracks.fresh {saved : Bytes} (h : Tracks console saved 0 cartridge) :
    console.schedule.isStale cartridge.save.writes = false := by
  obtain ⟨copy, _, hstored, hcopy⟩ := h.copied
  rw [hcopy.eq_of_zero, SaveSchedule.isStale, hstored, bne_self_eq_false]

/-- An image that comes while the cartridge runs is not taken. -/
theorem take_unasked (on : console.phase = .running) (files : Files) (bytes : Bytes) :
    console.take ⟨files, .storage bytes⟩ = (.ok {}, console) := by
  have hlive : ¬console.isHalted = true := by simp [isHalted, on]
  unfold take execute
  rw [if_neg hlive]
  dsimp only
  rw [acceptStorage_of_ne (by rw [on]; decide)]

/-- Nor does the host count it. -/
theorem Tracks.unasked {saved : Bytes} {count : Nat} (h : Tracks console saved count cartridge)
    (on : console.phase = .running) (files : Files) (bytes : Bytes) :
    let late : List Turn := [⟨files, .storage bytes⟩]
    console.after late = console ∧ console.storedAfter (some saved) late = some saved ∧
      console.unstoredAfter count late = count := by
  intro late
  have htake := take_unasked on files bytes
  refine ⟨?_, ?_, ?_⟩
  · rw [after_cons, after_nil, htake]
  · unfold storedAfter storedAfter
    rw [h.storedBy_eq, htake]
    rfl
  · unfold unstoredAfter unstoredAfter unstoredBy writesBy
    rw [htake, h.plugged]
    show count + (cartridge.save.writes - cartridge.save.writes).toNat = count
    rw [UInt32.sub_self]
    rfl

end

/-- The ROM with such a program. -/
theorem circles_storeRom (files : Files) (buttons : UInt8 × UInt8) (stored : Bytes) :
    ∃ waiting, waiting = ({} : Console).after
        [⟨files, .insert (.image (Image.storeRom 0x8000))⟩, ⟨files, .frame buttons⟩] ∧
      waiting.phase = .awaitStorage ∧ ∃ cartridge kept, waiting.battery? = some cartridge ∧
        Circles (waiting.take ⟨files, .storage stored⟩).2 (.storing 0x8000) 0x8000 0x6000 0
          kept := by
  obtain ⟨low, high⟩ := Image.vector_storing 0x8000
  exact ⟨_, rfl, circles_accepts (Image.sized_of_parse (Image.parse_storeRom 0x8000))
    (Image.load_storeRom 0x8000) rfl low high (Image.stores_storing 0x8000) files buttons stored⟩

/-- The ROM with such a program. A second image, which nobody asked for, changes nothing: save RAM
    is still the first one. And after `staleLimit` frames that all write to it, it was handed
    out. -/
theorem host_copy_of_storeRom :
    let files : Files := fun _ => .ok #[]
    let frame : Turn := ⟨files, .frame (0, 0)⟩
    let waiting := ({} : Console).after [⟨files, .insert (.image (Image.storeRom 0x8000))⟩, frame]
    let now := (waiting.take ⟨files, .storage #[7]⟩).2.after [⟨files, .storage #[9]⟩]
    let frames := List.replicate staleLimit frame
    waiting.phase = .awaitStorage ∧
      (∃ kept, now.battery? = some kept ∧ kept.save.bytes = Bytes.resize #[7] saveSize 0) ∧
      (∀ step ∈ now.steps frames, step.1.endsStale step.2 = true) ∧
      ∃ answer ∈ now.answers frames, ∃ key data, .save key data ∈ storageOf answer := by
  intro files frame waiting now frames
  obtain ⟨waiting', hwaiting, on, cartridge, running, plugged, hcircles⟩ :=
    circles_storeRom files (0, 0) #[7]
  have hsame : waiting = waiting' := hwaiting.symm
  -- the console that waits for the image stays closed from here on
  clear_value waiting
  subst hsame
  have tracks := tracks_accepts on plugged files #[7]
  obtain ⟨image, kept, hstored, hkept, _, _, hcurrent, _, _, hoverdue⟩ :=
    @host_copy waiting cartridge on plugged files #[7] [⟨files, .storage #[9]⟩]
      (by simp [Turn.plain])
  obtain ⟨start, hstart⟩ : ∃ start, (waiting.take ⟨files, .storage #[7]⟩).2 = start := ⟨_, rfl⟩
  rw [hstart] at hcircles tracks hstored hkept hcurrent hoverdue
  obtain ⟨hafter, hcopy, hcount⟩ := tracks.unasked hcircles.on files #[9]
  have hnow : now = start := by
    show (waiting.take ⟨files, .storage #[7]⟩).2.after [⟨files, .storage #[9]⟩] = start
    rw [hstart, hafter]
  rw [hafter] at hkept hcurrent hoverdue
  rw [hcount, Option.some.inj (hstored.symm.trans hcopy)] at hcurrent
  obtain rfl := Option.some.inj (hcircles.plugged.symm.trans tracks.plugged)
  obtain rfl := Option.some.inj (hkept.symm.trans hcircles.plugged)
  have hframes : ∀ turn ∈ frames, ∃ files buttons, turn = ⟨files, .frame buttons⟩ :=
    fun turn hturn => ⟨files, (0, 0), List.eq_of_mem_replicate hturn⟩
  have hlength : frames.length = staleLimit := List.length_replicate
  have hsteps := hcircles.steps tracks hframes (by rw [hlength]; decide)
  have hplayed : (start.steps frames).countP (fun step => (step.1.begun? step.2).isSome) =
      staleLimit := by
    rw [List.countP_eq_length.mpr fun step hmem => (hsteps step hmem).1, length_steps, hlength]
  have hplain : ∀ turn ∈ frames, turn.plain = true := by
    intro turn hturn
    obtain ⟨_, _, rfl⟩ := hframes turn hturn
    rfl
  rw [hnow]
  exact ⟨on, ⟨_, hkept, hcurrent (by decide) tracks.fresh⟩, fun step hmem => (hsteps step hmem).2,
    hoverdue frames hplain (fun step hmem _ => (hsteps step hmem).2) (Nat.le_of_eq hplayed.symm)⟩

end Console
end Nes
