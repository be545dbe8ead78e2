/-
  What an answer can hold, whatever was asked for before.

  A picture and sound come with the frames that are played and with no other answer, and always in
  full: the picture when the frame is drawn, 368 samples in any case. The host is asked for one
  thing at a time. A stored image is asked for when a cartridge with a battery is switched on, and
  every frame after that gives nothing until the image has come. At most four frames in a row go
  undrawn, and a console that has stopped gives nothing for ever.
-/
import Nes.Proofs.Console.Reactions
import Nes.Proofs.Console.SkippedFrame

namespace Nes

/-! ## Sizes -/

theorem Picture.size_paint (picture : Picture) (start x : Nat) (color : Nat → UInt32)
    (count : Nat) : (picture.paint start x color count).size = picture.size := by
  induction count generalizing picture x with
  | zero => rfl
  | succ count ih =>
    unfold paint
    rw [ih, Array.size_setIfInBounds]

theorem Ppu.size_drawLine (ppu : Ppu) (picture : Option Picture) (start : Option Nat) :
    (ppu.drawLine picture start).1.map Array.size = picture.map Array.size := by
  unfold drawLine
  split
  · rfl
  · cases start with
    | none => rfl
    | some start =>
      cases picture with
      | none => rfl
      | some picture => simp only [Option.map_some, Picture.size_paint]

theorem Ppu.size_renderScanline (ppu : Ppu) (line : Nat) (picture : Option Picture) :
    (ppu.renderScanline line picture).1.map Array.size = picture.map Array.size := by
  unfold renderScanline
  dsimp only
  split
  · rfl
  · split
    · exact size_drawLine ppu picture _
    · split
      · cases picture with
        | none => rfl
        | some picture => simp only [Option.map_some, Picture.size_paint]
      · rfl

theorem Apu.size_mixLevels (pulse1 pulse2 triangle noise dmc : Array Nat) :
    (mixLevels pulse1 pulse2 triangle noise dmc).size = sliceSamples := by
  unfold mixLevels
  generalize sliceSamples = count
  rw [Array.size_map, Array.size_range]

theorem Apu.size_slice (apu : Apu) (reader : UInt16 → UInt8) :
    (apu.slice reader).1.samples.size = sliceSamples := by
  unfold slice
  dsimp only
  rw [size_mixLevels]

namespace Scan

theorem draw_picture (scan : Scan) (line : Nat) :
    (scan.draw line).picture =
      ((beforeLine scan.machine.bus line).hardware.ppu.renderScanline line scan.picture).1 := rfl

theorem compute_picture (scan : Scan) (line : Nat) :
    (scan.compute line).picture = scan.picture := rfl

theorem listen_picture (scan : Scan) : scan.listen.picture = scan.picture := rfl

theorem picture_line (scan : Scan) (line : Nat) :
    (scan.line line).picture.map Array.size = scan.picture.map Array.size := by
  unfold Scan.line
  dsimp only
  split
  · rw [listen_picture, compute_picture, draw_picture, Ppu.size_renderScanline]
  · rw [compute_picture, draw_picture, Ppu.size_renderScanline]

theorem sound_listen (scan : Scan) :
    scan.listen.sound.size = scan.sound.size + sliceSamples := by
  unfold listen
  dsimp only
  rw [Array.size_append, Apu.size_slice]

theorem sound_line (scan : Scan) (line : Nat) :
    (scan.line line).sound.size =
      scan.sound.size + if line ∈ sliceLines then sliceSamples else 0 := by
  unfold Scan.line
  dsimp only
  split
  · exact sound_listen _
  · rfl

theorem sizes_lines (scan : Scan) (lines : List Nat) :
    (lines.foldl Scan.line scan).picture.map Array.size = scan.picture.map Array.size ∧
      (lines.foldl Scan.line scan).sound.size =
        scan.sound.size + sliceSamples * lines.countP (· ∈ sliceLines) := by
  induction lines generalizing scan with
  | nil => exact ⟨rfl, rfl⟩
  | cons line lines ih =>
    obtain ⟨hpicture, hsound⟩ := ih (scan.line line)
    rw [picture_line] at hpicture
    rw [sound_line] at hsound
    refine ⟨hpicture, hsound.trans ?_⟩
    rw [List.countP_cons]
    simp only [decide_eq_true_eq]
    split
    · rw [Nat.mul_add]
      omega
    · rfl

/-- Sound comes four times in a frame. -/
theorem slices_frame : (List.range frameLines).countP (· ∈ sliceLines) = slicesPerFrame := by
  decide +kernel

theorem sizes_frame (scan : Scan) :
    scan.frame.picture.map Array.size = scan.picture.map Array.size ∧
      scan.frame.sound.size = scan.sound.size + sliceSamples * slicesPerFrame := by
  unfold frame
  rw [← slices_frame]
  exact sizes_lines scan _

end Scan

/-- Whether a request brings the stored image or chooses a cartridge. -/
def Turn.brings (turn : Turn) : Bool :=
  match turn.request with
  | .insert _ | .storage _ => true
  | _ => false

namespace Console

/-- A frame gives a picture if it is drawn, and sound in any case, both of full size. -/
theorem sizes_opening (cpu : Cpu) (hardware : Hardware) (cartridge : Cartridge)
    (buttons : UInt8 × UInt8) (drawn : Bool) :
    (opening cpu hardware cartridge buttons drawn).frame.picture.map Array.size =
        (if drawn then some (256 * 224) else none) ∧
      (opening cpu hardware cartridge buttons drawn).frame.sound.size = 368 := by
  obtain ⟨hpicture, hsound⟩ := Scan.sizes_frame (opening cpu hardware cartridge buttons drawn)
  refine ⟨hpicture.trans ?_, hsound.trans rfl⟩
  unfold opening
  cases drawn with
  | false => rfl
  | true => simp [Picture.blank, screenWidth, screenHeight]

/-! ## One answer -/

/-- The picture of an answer. -/
def pictureOf : Except LoadError Response → Option Picture
  | .ok response => response.screen
  | .error _ => none

/-- The sound of an answer. -/
def soundOf : Except LoadError Response → Option Bytes
  | .ok response => response.sound
  | .error _ => none

/-- What an answer can hold, and how it belongs to the frame that was emulated. -/
structure Shaped (console : Console) (turn : Turn)
    (result : Except LoadError Response × Console) : Prop where
  /-- The console goes on from the end of the frame. -/
  machine : ∀ scan, console.emulated? turn = some scan →
    result.2.cpu = scan.machine.cpu ∧ result.2.hardware = scan.machine.bus.hardware ∧
      result.2.cartridge = some scan.machine.bus.cartridge
  picture : ∀ picture, pictureOf result.1 = some picture → picture.size = 256 * 224 ∧
    ∃ buttons scan, turn.request = .frame buttons ∧ console.emulated? turn = some scan ∧
      scan.picture = some picture
  sound : soundOf result.1 = (console.emulated? turn).map Scan.sound
  sound_size : ∀ sound, soundOf result.1 = some sound → sound.size = 368
  storage : (storageOf result.1).length ≤ 1
  load : ∀ key size, .load key size ∈ storageOf result.1 →
    pictureOf result.1 = none ∧ soundOf result.1 = none ∧ result.2.phase = .awaitStorage ∧
      ∃ cartridge, result.2.battery? = some cartridge ∧ key = cartridge.image.key ∧
        size = saveSize

theorem frame_of_asked {turn : Turn} {buttons : UInt8 × UInt8}
    (asked : turn.frame? = some (buttons, true)) : turn.request = .frame buttons := by
  unfold Turn.frame? at asked
  split at asked
  · next hrequest =>
    cases asked
    exact hrequest
  all_goals cases asked

theorem shaped_begun {console start : Console} {turn : Turn} (plugged : PluggedIn console)
    (begun : console.begun? turn = some start) : Shaped console turn (console.take turn) := by
  obtain ⟨buttons, drawn, cartridge, scan, journal, storage, schedule, asked, _, hscan, hframe,
    htake, hstorage⟩ := take_begun plugged begun
  obtain ⟨hpicture, hsound⟩ :=
    sizes_opening start.cpu start.hardware cartridge buttons drawn
  rw [← hframe] at hpicture hsound
  rw [htake]
  refine ⟨?machine, ?picture, ?sound, ?size, ?storage, ?load⟩
  case machine =>
    intro scan' hscan'
    cases hscan.symm.trans hscan'
    exact ⟨rfl, rfl, rfl⟩
  case picture =>
    intro picture hsome
    have hshown : scan.picture = some picture := hsome
    rw [hshown, Option.map_some] at hpicture
    cases drawn with
    | false => cases hpicture
    | true =>
      exact ⟨Option.some.inj hpicture, buttons, scan, frame_of_asked asked, hscan, hshown⟩
  case sound =>
    rw [hscan]
    rfl
  case size =>
    intro sound hsome
    cases hsome
    exact hsound
  case storage =>
    obtain rfl | ⟨_, rfl⟩ := hstorage
    · exact Nat.zero_le 1
    · exact Nat.le_refl 1
  case load =>
    intro key size hload
    have hmem : .load key size ∈ storage := hload
    obtain rfl | ⟨_, rfl⟩ := hstorage
    · cases hmem
    · simp at hmem

/-- An answer without picture and sound, to a request that emulates no frame. -/
theorem shaped_silent {console : Console} {turn : Turn}
    {result : Except LoadError Response × Console} (still : console.emulated? turn = none)
    (hpicture : pictureOf result.1 = none) (hsound : soundOf result.1 = none)
    (hstorage : (storageOf result.1).length ≤ 1)
    (hload : ∀ key size, .load key size ∈ storageOf result.1 →
      result.2.phase = .awaitStorage ∧ ∃ cartridge, result.2.battery? = some cartridge ∧
        key = cartridge.image.key ∧ size = saveSize) :
    Shaped console turn result where
  machine scan hscan := by
    rw [still] at hscan
    cases hscan
  picture picture hsome := by
    rw [hpicture] at hsome
    cases hsome
  sound := by
    rw [hsound, still]
    rfl
  sound_size sound hsome := by
    rw [hsound] at hsome
    cases hsome
  storage := hstorage
  load key size hmem := ⟨hpicture, hsound, hload key size hmem⟩

/-- Nothing is asked for but that save RAM be stored. -/
theorem shaped_still {console : Console} {turn : Turn}
    {result : Except LoadError Response × Console} (still : console.emulated? turn = none)
    (hpicture : pictureOf result.1 = none) (hsound : soundOf result.1 = none)
    (hstorage : storageOf result.1 = [] ∨ ∃ key data, storageOf result.1 = [.save key data]) :
    Shaped console turn result := by
  obtain h | ⟨key, data, h⟩ := hstorage
  · refine shaped_silent still hpicture hsound ?_ fun key size hload => ?_
    · rw [h]
      exact Nat.zero_le 1
    · rw [h] at hload
      cases hload
  · refine shaped_silent still hpicture hsound ?_ fun key size hload => ?_
    · rw [h]
      exact Nat.le_refl 1
    · rw [h] at hload
      simp at hload

theorem storage_shutDown (console : Console) :
    console.shutDown.1.storage = [] ∨
      ∃ key data, console.shutDown.1.storage = [.save key data] := by
  unfold shutDown
  dsimp only
  split
  · exact .inl rfl
  · cases battery : console.battery? with
    | none =>
      rw [save_none battery]
      exact .inl rfl
    | some cartridge =>
      rw [save_eq battery]
      exact .inr ⟨_, _, rfl⟩

/-- The answer that asks for the stored image of the cartridge that was switched on. -/
theorem shaped_loads {console : Console} {turn : Turn} {cartridge : Cartridge}
    (still : console.emulated? turn = none) (battery : cartridge.battery = true) :
    Shaped console turn
      (.ok { storage := [.load cartridge.image.key saveSize]
             journal := (console.powerOn cartridge).1 },
        (console.powerOn cartridge).2) := by
  obtain ⟨⟨board, irq, hcartridge⟩, hphase⟩ := powerOn_plugged console cartridge
  refine shaped_silent still rfl rfl (Nat.le_refl 1) fun key size hload => ?_
  have hasked : key = cartridge.image.key ∧ size = saveSize := by
    simpa [storageOf] using hload
  refine ⟨?_, { cartridge with board, irq }, ?_, hasked⟩
  · dsimp only
    rw [hphase, if_pos battery]
  · unfold battery?
    dsimp only
    rw [hcartridge, Option.filter_some]
    exact if_pos battery

theorem load_mem_take {console : Console} {turn : Turn} {frame : (UInt8 × UInt8) × Bool}
    {cartridge : Cartridge} (asked : turn.frame? = some frame) (on : console.phase = .powerOn)
    (load : console.chosen turn.files = .ok cartridge) (battery : cartridge.battery = true) :
    .load cartridge.image.key saveSize ∈ storageOf (console.take turn).1 := by
  rw [take_loads asked on load battery]
  exact List.mem_singleton.mpr rfl

theorem shaped_reaction {console : Console} {turn : Turn}
    {result : Except LoadError Response × Console} (h : Reaction console turn result)
    (begun : console.begun? turn = none) (still : console.emulated? turn = none) :
    Shaped console turn result := by
  cases h with
  | halted | waits | fails | drops | presses | chooses | accepts =>
    exact shaped_still still rfl rfl (.inl rfl)
  | stops => exact shaped_still still (by rfl) (by rfl) (storage_shutDown console)
  | loads asked on load battery => exact shaped_loads still battery
  | plays asked ready due =>
    have hbegun := begun_eq_some.mpr ⟨_, _, _, asked, ready, due⟩
    rw [begun] at hbegun
    cases hbegun

theorem shaped_take {console : Console} (plugged : PluggedIn console) (turn : Turn) :
    Shaped console turn (console.take turn) := by
  cases begun : console.begun? turn with
  | some start => exact shaped_begun plugged begun
  | none =>
    have hnone := isSome_emulated plugged turn
    rw [begun] at hnone
    exact shaped_reaction (take_reaction console turn) begun (by simpa using hnone)

/-! ## Waiting for the stored image, and after the end -/

/-- A console that gives nothing on a frame: it waits for its stored image, or has stopped. -/
def Idle (console : Console) : Prop := console.phase = .awaitStorage ∨ console.phase = .halted

theorem take_idle {console : Console} (idle : Idle console) {turn : Turn}
    (asked : turn.frame?.isSome = true) : console.take turn = (.ok {}, console) := by
  obtain on | on := idle
  · obtain ⟨⟨buttons, drawn⟩, hasked⟩ := Option.isSome_iff_exists.mp asked
    rw [take_asked (by rw [on]; decide) hasked]
    unfold runFrame
    rw [on]
  · exact take_halted on turn

theorem idle_reaction {console : Console} {turn : Turn}
    {result : Except LoadError Response × Console} (h : Reaction console turn result)
    (idle : Idle console) (kept : turn.brings = false) : Idle result.2 := by
  have hready {result : Journal × Console} : console.ready? turn.files ≠ some result := by
    intro ready
    unfold ready? at ready
    obtain on | on := idle
    · rw [on] at ready
      cases ready
    · rw [on] at ready
      cases ready
  cases h with
  | halted | waits | fails => exact idle
  | loads asked on load battery =>
    unfold Idle at idle
    rw [on] at idle
    simp at idle
  | drops asked ready full => exact absurd ready hready
  | plays asked ready due => exact absurd ready hready
  | presses asked on =>
    have hrunning : console.phase ≠ .running := by
      intro hrunning
      unfold Idle at idle
      rw [hrunning] at idle
      simp at idle
    unfold Idle
    dsimp only
    rw [if_neg hrunning]
    exact idle
  | stops asked on =>
    obtain ⟨schedule, hstop⟩ := shutDown_snd console
    rw [hstop]
    exact .inr rfl
  | chooses asked on =>
    unfold Turn.brings at kept
    rw [asked] at kept
    cases kept
  | accepts asked on =>
    unfold Turn.brings at kept
    rw [asked] at kept
    cases kept

theorem idle_after {console : Console} (idle : Idle console) {turns : List Turn}
    (kept : ∀ turn ∈ turns, turn.brings = false) : Idle (console.after turns) := by
  induction turns generalizing console with
  | nil => exact idle
  | cons turn turns ih =>
    have hturn : turn.brings = false := kept turn List.mem_cons_self
    have hturns : ∀ turn ∈ turns, turn.brings = false :=
      fun turn hmem => kept turn (List.mem_cons_of_mem _ hmem)
    exact ih (idle_reaction (take_reaction console turn) idle hturn) hturns

theorem halted_after {console : Console} (on : console.phase = .halted) (turns : List Turn) :
    (console.after turns).phase = .halted := by
  refine after_keeps (P := fun console => console.phase = .halted) ?_ on turns
  intro console turn on
  rw [take_halted on]
  exact on

theorem halted_shutdown {console : Console} {turn : Turn} (asked : turn.request = .shutdown) :
    (console.take turn).2.phase = .halted := by
  by_cases on : console.phase = .halted
  · rw [take_halted on]
    exact on
  · obtain ⟨schedule, hstop⟩ := shutDown_snd console
    have hhalted : ¬ console.isHalted = true := by simpa [isHalted] using on
    unfold take execute
    rw [if_neg hhalted, asked]
    dsimp only
    rw [hstop]

theorem halted_of_shutdown {console : Console} {turns : List Turn} {turn : Turn}
    (hmem : turn ∈ turns) (asked : turn.request = .shutdown) :
    (console.after turns).phase = .halted := by
  obtain ⟨before, later, rfl⟩ := List.append_of_mem hmem
  rw [after_append, after_cons]
  exact halted_after (halted_shutdown asked) later

/-- Only a request to stop stops the console, and it stays so. -/
theorem halted_take_iff {console : Console} {turn : Turn} :
    (console.take turn).2.phase = .halted ↔ console.phase = .halted ∨ turn.request = .shutdown := by
  constructor
  · intro hhalted
    have reaction := take_reaction console turn
    obtain ⟨result, hresult⟩ : ∃ result, console.take turn = result := ⟨_, rfl⟩
    rw [hresult] at reaction hhalted
    cases reaction with
    | halted on | waits _ on | fails _ on => exact .inl hhalted
    | stops asked => exact .inr asked
    | loads asked on load battery =>
      rw [(powerOn_plugged console _).2, if_pos battery] at hhalted
      cases hhalted
    | drops asked ready =>
      rw [ready_phase ready] at hhalted
      cases hhalted
    | plays asked ready =>
      rw [playCounted_phase, ready_phase ready] at hhalted
      cases hhalted
    | presses asked on =>
      dsimp only at hhalted
      split at hhalted
      · cases hhalted
      · exact .inl hhalted
    | chooses => cases hhalted
    | accepts asked on =>
      rw [acceptStorage_phase] at hhalted
      split at hhalted
      · cases hhalted
      · exact .inl hhalted
  · rintro (on | asked)
    · rw [take_halted on]
      exact on
    · exact halted_shutdown asked

theorem isHalted_take (console : Console) (turn : Turn) :
    (console.take turn).2.isHalted = (console.isHalted || turn.request = .shutdown) := by
  rw [Bool.eq_iff_iff]
  simpa [isHalted] using halted_take_iff

/-! ## Frames that go undrawn -/

/-- Whether a request switches a cartridge on or starts the console over. -/
def restarts (console : Console) (turn : Turn) : Bool :=
  turn.frame?.isSome &&
    (console.phase = .reset || console.phase = .powerOn && (console.chosen turn.files).isOk)

/-- A history in which no frame is drawn and the console is neither switched on nor started
    over. -/
def Undrawn (console : Console) (turns : List Turn) : Prop :=
  ∀ step ∈ console.steps turns, step.1.restarts step.2 = false ∧
    (step.2.isSkip = true ∨ step.1.emulated? step.2 = none)

/-- How many frames a sequence of requests skips, those that are dropped not counted. -/
def skipCount (console : Console) (turns : List Turn) : Nat :=
  (console.steps turns).countP fun step => step.2.isSkip && (step.1.emulated? step.2).isSome

theorem isSkip_asked {turn : Turn} {buttons : UInt8 × UInt8} {drawn : Bool}
    (asked : turn.frame? = some (buttons, drawn)) : turn.isSkip = !drawn := by
  unfold Turn.frame? at asked
  unfold Turn.isSkip
  split at asked
  · next hrequest =>
    cases asked
    rw [hrequest]
    rfl
  · next hrequest =>
    cases asked
    rw [hrequest]
    rfl
  all_goals cases asked

/-- A frame that starts neither on a cartridge that is switched on nor on the reset button goes
    on from the console as it is. -/
theorem ready_kept {console start : Console} {turn : Turn} {frame : (UInt8 × UInt8) × Bool}
    {journal : Journal} (asked : turn.frame? = some frame)
    (ready : console.ready? turn.files = some (journal, start))
    (kept : console.restarts turn = false) :
    console.phase = .running ∧ journal = #[] ∧ start = console := by
  unfold restarts at kept
  rw [asked] at kept
  obtain ⟨cartridge, on, load, _, _⟩ | ⟨on, _⟩ | hrunning := ready_cases ready
  · rw [on, load] at kept
    simp [Except.isOk, Except.toBool] at kept
  · rw [on] at kept
    simp at kept
  · exact hrunning

theorem skipped_acceptStorage (console : Console) (bytes : Bytes) :
    (console.acceptStorage bytes).skipped = console.skipped := by
  unfold acceptStorage
  split
  · split
    · rfl
    · rfl
  · rfl

/-- Without a frame the count of undrawn frames stays, or starts over with the console. -/
theorem skipped_reaction {console : Console} {turn : Turn}
    {result : Except LoadError Response × Console} (h : Reaction console turn result)
    (plugged : PluggedIn console) (still : console.begun? turn = none) :
    result.2.skipped = console.skipped ∨
      console.restarts turn = true ∧ result.2.skipped = 0 := by
  cases h with
  | halted | waits | fails | presses | chooses => exact .inl rfl
  | loads asked on load battery =>
    refine .inr ⟨?_, skipped_powerOn console _⟩
    unfold restarts
    rw [asked, on, load]
    rfl
  | drops asked ready full =>
    obtain ⟨_, _, rfl⟩ := ready_full plugged ready full
    exact .inl rfl
  | plays asked ready due =>
    have hbegun := begun_eq_some.mpr ⟨_, _, _, asked, ready, due⟩
    rw [still] at hbegun
    cases hbegun
  | stops asked on =>
    obtain ⟨schedule, hstop⟩ := shutDown_snd console
    rw [hstop]
    exact .inl rfl
  | accepts asked on => exact .inl (skipped_acceptStorage console _)

/-- No console has more than four undrawn frames behind it. -/
theorem skipped_take {console : Console} (plugged : PluggedIn console)
    (few : console.skipped ≤ skipLimit) (turn : Turn) :
    (console.take turn).2.skipped ≤ skipLimit := by
  cases begun : console.begun? turn with
  | none =>
    obtain h | ⟨_, h⟩ := skipped_reaction (take_reaction console turn) plugged begun
    · rw [h]
      exact few
    · rw [h]
      exact Nat.zero_le _
  | some start =>
    obtain ⟨buttons, drawn, journal, asked, ready, due⟩ := begun_eq_some.mp begun
    obtain ⟨_, drawn', _, _, _, _, _, asked', _, _, _, htake, _⟩ := take_begun plugged begun
    cases asked.symm.trans asked'
    rw [htake]
    cases drawn with
    | true => exact Nat.zero_le _
    | false =>
      have hskipped : start.skipped < skipLimit := by simpa using due
      exact hskipped

theorem skipped_after (registry : Registry) (turns : List Turn) :
    (({ registry } : Console).after turns).skipped ≤ skipLimit := by
  have hboth := after_keeps
    (P := fun console => PluggedIn console ∧ console.skipped ≤ skipLimit)
    (fun console turn h => ⟨pluggedIn_take h.1 turn, skipped_take h.1 h.2 turn⟩)
    ⟨pluggedIn_after registry [], Nat.zero_le _⟩ turns
  exact hboth.2

/-- The count of undrawn frames goes up with each frame that is skipped. -/
theorem skipped_take_undrawn {console : Console} (plugged : PluggedIn console) {turn : Turn}
    (kept : console.restarts turn = false)
    (undrawn : turn.isSkip = true ∨ console.emulated? turn = none) :
    (console.take turn).2.skipped =
      console.skipped + if turn.isSkip && (console.emulated? turn).isSome then 1 else 0 := by
  cases begun : console.begun? turn with
  | none =>
    rw [isSome_emulated plugged, begun]
    obtain h | ⟨h, _⟩ := skipped_reaction (take_reaction console turn) plugged begun
    · simpa using h
    · rw [kept] at h
      cases h
  | some start =>
    obtain ⟨buttons, drawn, journal, asked, ready, due⟩ := begun_eq_some.mp begun
    obtain ⟨_, drawn', _, scan, _, _, _, asked', _, hscan, _, htake, _⟩ :=
      take_begun plugged begun
    cases asked.symm.trans asked'
    obtain ⟨_, _, rfl⟩ := ready_kept asked ready kept
    have hskip : turn.isSkip = true := undrawn.resolve_right (by simp [hscan])
    have hdrawn : drawn = false := by simpa [isSkip_asked asked] using hskip
    rw [htake, hskip, hscan, hdrawn]
    rfl

theorem skipped_undrawn {console : Console} (plugged : PluggedIn console) {turns : List Turn}
    (undrawn : Undrawn console turns) :
    (console.after turns).skipped = console.skipped + console.skipCount turns := by
  induction turns generalizing console with
  | nil => rfl
  | cons turn turns ih =>
    obtain ⟨hkept, hundrawn⟩ : console.restarts turn = false ∧
        (turn.isSkip = true ∨ console.emulated? turn = none) :=
      undrawn (console, turn) List.mem_cons_self
    have hturn := skipped_take_undrawn plugged hkept hundrawn
    have hturns := ih (pluggedIn_take plugged turn)
      fun step hmem => undrawn step (List.mem_cons_of_mem _ hmem)
    have hcount : console.skipCount (turn :: turns) =
        (console.take turn).2.skipCount turns +
          if turn.isSkip && (console.emulated? turn).isSome then 1 else 0 := by
      unfold skipCount
      rw [steps, List.countP_cons]
    rw [after_cons, hturns, hturn, hcount]
    omega

theorem asked_of_isSkip {turn : Turn} (skip : turn.isSkip = true) :
    ∃ buttons, turn.frame? = some (buttons, false) := by
  unfold Turn.isSkip at skip
  unfold Turn.frame?
  split at skip
  · next buttons hrequest =>
    rw [hrequest]
    exact ⟨buttons, rfl⟩
  · cases skip

/-- A console that has played a frame runs, and has counted it. -/
theorem running_of_begun {console start : Console} {turn : Turn} (plugged : PluggedIn console)
    (begun : console.begun? turn = some start) :
    (console.take turn).2.phase = .running ∧
      (console.take turn).2.skipped = if turn.isSkip then start.skipped + 1 else 0 := by
  obtain ⟨buttons, drawn, journal, asked, ready, _⟩ := begun_eq_some.mp begun
  obtain ⟨_, drawn', _, _, _, _, _, asked', _, _, _, htake, _⟩ := take_begun plugged begun
  cases asked.symm.trans asked'
  rw [htake, isSkip_asked asked]
  refine ⟨(ready_running plugged ready).1, ?_⟩
  cases drawn with
  | true => rfl
  | false => rfl

/-- A console that runs skips as many frames as are left. -/
theorem skips_running {console : Console} (plugged : PluggedIn console)
    (on : console.phase = .running) {skip : Turn} (hskip : skip.isSkip = true) {count : Nat}
    (few : console.skipped + count ≤ skipLimit) :
    console.Undrawn (List.replicate count skip) ∧
      console.skipCount (List.replicate count skip) = count ∧
      (console.after (List.replicate count skip)).phase = .running := by
  induction count generalizing console with
  | zero => exact ⟨fun step hmem => absurd hmem List.not_mem_nil, rfl, on⟩
  | succ count ih =>
    obtain ⟨buttons, asked⟩ := asked_of_isSkip hskip
    have ready : console.ready? skip.files = some (#[], console) := by
      unfold ready?
      rw [on]
    have begun : console.begun? skip = some console := by
      refine begun_eq_some.mpr ⟨buttons, false, #[], asked, ready, ?_⟩
      simp only [Bool.false_or, decide_eq_true_eq]
      omega
    have kept : console.restarts skip = false := by
      unfold restarts
      rw [on]
      simp
    obtain ⟨hphase, hskipped⟩ := running_of_begun plugged begun
    rw [hskip, if_pos rfl] at hskipped
    obtain ⟨hundrawn, hcount, hafter⟩ := ih (pluggedIn_take plugged skip) hphase (by omega)
    rw [List.replicate_succ]
    refine ⟨fun step hmem => ?_, ?_, hafter⟩
    · obtain rfl | hmem := List.mem_cons.mp hmem
      · exact ⟨kept, .inl hskip⟩
      · exact hundrawn step hmem
    · have hemulated : (console.emulated? skip).isSome = true := by
        rw [isSome_emulated plugged, begun]
        rfl
      unfold skipCount at hcount ⊢
      rw [steps, List.countP_cons, hcount, hskip, hemulated]
      rfl

/-- With four undrawn frames behind it, a console gives nothing on a skip and stays as it is. -/
theorem full_reaction {console : Console} {turn : Turn}
    {result : Except LoadError Response × Console} (h : Reaction console turn result)
    (plugged : PluggedIn console) (full : skipLimit ≤ console.skipped)
    (skip : turn.isSkip = true) (kept : console.restarts turn = false) :
    (∀ response, result.1 = .ok response → response = {}) ∧ result.2 = console := by
  have hempty (response : Response)
      (hok : (.ok {} : Except LoadError Response) = .ok response) : response = {} :=
    (Except.ok.inj hok).symm
  obtain ⟨buttons, hasked⟩ := asked_of_isSkip skip
  cases h with
  | halted | waits => exact ⟨hempty, rfl⟩
  | fails =>
    refine ⟨fun response hok => ?_, rfl⟩
    cases hok
  | loads asked on load battery =>
    unfold restarts at kept
    rw [asked, on, load] at kept
    cases kept
  | drops asked ready full =>
    obtain ⟨_, rfl, rfl⟩ := ready_full plugged ready full
    exact ⟨hempty, rfl⟩
  | plays asked ready due =>
    obtain ⟨_, _, hstart⟩ := ready_kept asked ready kept
    cases hasked.symm.trans asked
    have hdue : console.skipped < skipLimit := by simpa [hstart] using due
    exact absurd full (Nat.not_le_of_lt hdue)
  | presses asked | stops asked | chooses asked | accepts asked =>
    unfold Turn.isSkip at skip
    rw [asked] at skip
    cases skip

/-! ## Every answer -/

/-- After any sequence of requests to a new console, whatever is asked next:

    - a picture comes only with a frame that was emulated to be drawn, sound comes exactly with a
      frame that was emulated, both are those of the frame and of full size, and the storage is
      asked for one thing at most;
    - a stored image is asked for when a cartridge with a battery was switched on, without
      picture and sound, and until the image has come or a cartridge is chosen, frames give
      nothing and change nothing;
    - as long as no frame is drawn and the console is neither switched on nor started over, at
      most four frames are skipped, and after the fourth a skip gives nothing and changes
      nothing;
    - after a shutdown nothing is given, and nothing changes. -/
theorem answers_shaped (registry : Registry) (turns : List Turn) :
    let console := ({ registry } : Console).after turns
    (∀ turn, Shaped console turn (console.take turn)) ∧
    (∀ turn key size, .load key size ∈ storageOf (console.take turn).1 →
      ∀ later : List Turn, (∀ turn ∈ later, turn.brings = false) →
        ∀ frame : Turn, frame.frame?.isSome = true →
          ((console.take turn).2.after later).take frame =
            (.ok {}, (console.take turn).2.after later)) ∧
    (∀ later, console.Undrawn later → console.skipCount later ≤ 4 ∧
      (console.skipCount later = 4 → ∀ skip : Turn, skip.isSkip = true →
        (console.after later).restarts skip = false →
          (∀ response, ((console.after later).take skip).1 = .ok response → response = {}) ∧
            ((console.after later).take skip).2 = console.after later)) ∧
    (∀ turn ∈ turns, turn.request = .shutdown → ∀ next, console.take next = (.ok {}, console)) := by
  intro console
  have plugged : PluggedIn console := pluggedIn_after registry turns
  refine ⟨shaped_take plugged, ?waiting, ?skipping, ?stopped⟩
  case waiting =>
    intro turn key size hload later kept frame asked
    have hwaits := ((shaped_take plugged turn).load key size hload).2.2.1
    exact take_idle (idle_after (.inl hwaits) kept) asked
  case skipping =>
    intro later undrawn
    have hskipped := skipped_undrawn plugged undrawn
    have hfew := skipped_after registry (turns ++ later)
    rw [after_append, hskipped] at hfew
    have hcount : console.skipCount later ≤ 4 := by
      unfold skipLimit at hfew
      omega
    refine ⟨hcount, fun hfour skip hskip kept => ?_⟩
    have hplugged : PluggedIn (console.after later) := by
      have h := pluggedIn_after registry (turns ++ later)
      rwa [after_append] at h
    have hfull : skipLimit ≤ (console.after later).skipped := by
      rw [hskipped, hfour]
      exact Nat.le_add_left _ _
    exact full_reaction (take_reaction _ skip) hplugged hfull hskip kept
  case stopped =>
    intro turn hmem asked next
    exact take_halted (halted_of_shutdown hmem asked) next

/-- After a frame that is drawn, four can be skipped, and no more. -/
theorem skips_after_frame {registry : Registry} {turns : List Turn} {frame skip : Turn}
    {start : Console} (begun : (({ registry } : Console).after turns).begun? frame = some start)
    (drawn : frame.isSkip = false) (hskip : skip.isSkip = true) :
    let running := ({ registry } : Console).after (turns ++ [frame])
    running.Undrawn (List.replicate 4 skip) ∧ running.skipCount (List.replicate 4 skip) = 4 ∧
      (running.after (List.replicate 4 skip)).restarts skip = false := by
  intro running
  obtain ⟨on, hskipped⟩ := running_of_begun (pluggedIn_after registry turns) begun
  rw [← after_concat] at on hskipped
  rw [drawn, if_neg (by decide)] at hskipped
  have few : running.skipped + 4 ≤ skipLimit := Nat.le_of_eq (congrArg (· + 4) hskipped)
  obtain ⟨undrawn, hcount, hafter⟩ :=
    skips_running (pluggedIn_after registry (turns ++ [frame])) on hskip few
  refine ⟨undrawn, hcount, ?_⟩
  unfold restarts
  rw [hafter]
  simp

theorem answers_shaped_of_headers :
    let files : Files := fun _ => .ok #[]
    let insert (bytes : Bytes) : Turn := ⟨files, .insert (.image bytes)⟩
    let frame : Turn := ⟨files, .frame (0, 0)⟩
    let skip : Turn := ⟨files, .skip (0, 0)⟩
    let new : Console := {}
    let waiting := ((new.after [insert batteryHeader]).take frame).2.after [frame, skip]
    let running := new.after ([insert emptyRom] ++ [frame])
    let four := List.replicate 4 skip
    waiting.take frame = (.ok {}, waiting) ∧ Shaped running skip (running.take skip) ∧
      running.Undrawn four ∧ running.skipCount four = 4 ∧
      ((running.after four).take skip).2 = running.after four ∧
      (new.after [⟨files, .shutdown⟩]).take frame =
        (.ok {}, new.after [⟨files, .shutdown⟩]) := by
  intro files insert frame skip new waiting running four
  have hbegun : ∃ start, (new.after [insert emptyRom]).begun? frame = some start := ⟨_, rfl⟩
  obtain ⟨start, begun⟩ := hbegun
  obtain ⟨undrawn, hcount, kept⟩ :=
    @skips_after_frame {} [insert emptyRom] frame skip start begun rfl rfl
  obtain ⟨hshaped, _, hskips, _⟩ := answers_shaped {} ([insert emptyRom] ++ [frame])
  refine ⟨?_, hshaped skip, undrawn, hcount, ?_, ?_⟩
  · have hchosen : ∃ cartridge,
        (new.after [insert batteryHeader]).chosen files = .ok cartridge ∧
          cartridge.battery = true := ⟨_, rfl, rfl⟩
    obtain ⟨cartridge, load, battery⟩ := hchosen
    have asked : frame.frame? = some ((0, 0), true) := rfl
    have on : (new.after [insert batteryHeader]).phase = .powerOn := rfl
    have hload := load_mem_take asked on load battery
    have hkept : ∀ turn ∈ [frame, skip], turn.brings = false := by
      simp [Turn.brings, frame, skip]
    obtain ⟨_, hwaits, _⟩ := answers_shaped {} [insert batteryHeader]
    exact hwaits frame _ _ hload [frame, skip] hkept frame rfl
  · exact ((hskips four undrawn).2 hcount skip rfl kept).2
  · exact (answers_shaped {} [⟨files, .shutdown⟩]).2.2.2 _ List.mem_cons_self rfl frame

end Console
end Nes
