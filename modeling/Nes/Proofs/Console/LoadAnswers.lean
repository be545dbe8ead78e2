/-
  Whose stored image an answer brings.

  A cartridge with a battery asks for its stored image when it is plugged in, and the host's
  answer names no cartridge. `Loads` follows a host that answers every load once and in the order
  in which they came, however late: the loads are numbered, and each stored image that it sends
  belongs to the oldest that it has not answered.

  The console takes the first answer that comes while it waits. So an image is installed in a
  cartridge that did not ask for it exactly when another load was still unanswered when that
  cartridge was plugged in (`installs_foreign_iff`). A host that answers before it chooses the
  next cartridge is safe (`own_of_patient`).
-/
import Nes.Proofs.Console.UnsavedData
import Nes.Proofs.Host.Storage

namespace Nes

/-- The loads that a host has received. -/
structure Loads where
  issued : Nat := 0
  /-- Those that are not answered, the oldest first. -/
  unanswered : List Nat := []
  /-- The one for the cartridge that is plugged in, if it has a battery. -/
  own : Option Nat := none
  /-- Those that were not answered when it was plugged in. -/
  before : List Nat := []
deriving DecidableEq

/-- What is left of the unanswered loads when a request is made: a stored image that comes with it
    answers the oldest. -/
def Loads.leftBy (loads : Loads) (turn : Turn) : List Nat :=
  match turn.request with
  | .storage _ => loads.unanswered.tail
  | .frame _ | .skip _ | .reset | .shutdown | .insert _ => loads.unanswered

namespace Console

/-- Whether an answer asks for a stored image. -/
def asksLoad (answer : Except LoadError Response) : Bool :=
  (storageOf answer).any fun
    | .load _ _ => true
    | .save _ _ => false

/-- The loads after a request. -/
def loadsBy (console : Console) (loads : Loads) (turn : Turn) : Loads :=
  let left := loads.leftBy turn
  if asksLoad (console.take turn).1 then
    { issued := loads.issued + 1
      unanswered := left ++ [loads.issued]
      own := some loads.issued
      before := left }
  else if console.plugsIn turn then { loads with unanswered := left, own := none, before := [] }
  else { loads with unanswered := left }

/-- The loads after a sequence of requests. -/
def loadsAfter (console : Console) (loads : Loads) : List Turn → Loads
  | [] => loads
  | turn :: turns => loadsAfter (console.take turn).2 (console.loadsBy loads turn) turns

/-- A request brings a stored image that the console takes over, and it answers a load of another
    cartridge. -/
def InstallsForeign (console : Console) (loads : Loads) (turn : Turn) : Prop :=
  console.accepts turn = true ∧ loads.unanswered.head? ≠ loads.own

/-- A history in which every load is answered before the next cartridge is chosen. -/
def Patient (console : Console) (loads : Loads) : List Turn → Prop
  | [] => True
  | turn :: turns =>
    (∀ source, turn.request = .insert source → loads.unanswered = []) ∧
      Patient (console.take turn).2 (console.loadsBy loads turn) turns

theorem loadsAfter_append (console : Console) (loads : Loads) (turns turns' : List Turn) :
    console.loadsAfter loads (turns ++ turns') =
      (console.after turns).loadsAfter (console.loadsAfter loads turns) turns' := by
  induction turns generalizing console loads with
  | nil => rfl
  | cons turn turns ih => exact ih (console.take turn).2 (console.loadsBy loads turn)

theorem loadsAfter_concat (console : Console) (loads : Loads) (turns : List Turn) (turn : Turn) :
    console.loadsAfter loads (turns ++ [turn]) =
      (console.after turns).loadsBy (console.loadsAfter loads turns) turn := by
  rw [loadsAfter_append]
  rfl

/-! ## The load that a console waits for -/

/-- The loads are numbered in order, and while the console waits, that of its cartridge is the
    last. -/
structure Queued (console : Console) (loads : Loads) : Prop where
  numbered : ∀ load ∈ loads.unanswered, load < loads.issued
  last : console.phase = .awaitStorage → ∃ own, loads.own = some own ∧
    loads.unanswered = loads.before ++ [own] ∧ ∀ load ∈ loads.before, load < own

section
variable {console : Console} {loads : Loads} {turn : Turn}

/-- The loads after a request that asks for none and plugs nothing in. -/
theorem loadsBy_still (asks : asksLoad (console.take turn).1 = false)
    (stays : console.plugsIn turn = false) :
    console.loadsBy loads turn = { loads with unanswered := loads.leftBy turn } := by
  unfold loadsBy
  rw [asks, stays]
  rfl

theorem mem_leftBy {load : Nat} (h : load ∈ loads.leftBy turn) : load ∈ loads.unanswered := by
  unfold Loads.leftBy at h
  split at h
  · exact List.mem_of_mem_tail h
  all_goals exact h

theorem leftBy_asked {frame : (UInt8 × UInt8) × Bool} (asked : turn.frame? = some frame) :
    loads.leftBy turn = loads.unanswered := by
  unfold Turn.frame? at asked
  unfold Loads.leftBy
  split at asked
  · next hrequest => rw [hrequest]
  · next hrequest => rw [hrequest]
  all_goals cases asked

theorem numbered_loadsBy (numbered : ∀ load ∈ loads.unanswered, load < loads.issued)
    (turn : Turn) :
    ∀ load ∈ (console.loadsBy loads turn).unanswered,
      load < (console.loadsBy loads turn).issued := by
  have hleft : ∀ load ∈ loads.leftBy turn, load < loads.issued :=
    fun load hload => numbered load (mem_leftBy hload)
  unfold loadsBy
  dsimp only
  split
  · intro load hload
    rcases List.mem_append.mp hload with hload | hload
    · exact Nat.lt_succ_of_lt (hleft load hload)
    · rw [List.mem_singleton.mp hload]
      exact Nat.lt_succ_self _
  · split
    · exact hleft
    · exact hleft

theorem plugsIn_of_phase (on : console.phase ≠ .powerOn) (turn : Turn) :
    console.plugsIn turn = false := by simp [plugsIn, on]

/-- Every request keeps the loads in order. -/
theorem Queued.take (h : Queued console loads) (turn : Turn) :
    Queued (console.take turn).2 (console.loadsBy loads turn) := by
  refine ⟨numbered_loadsBy h.numbered turn, fun on => ?_⟩
  have reaction := take_reaction console turn
  obtain ⟨result, hresult⟩ : ∃ result, console.take turn = result := ⟨_, rfl⟩
  rw [hresult] at reaction on
  -- only a console that still waits, or that has just plugged a cartridge in, waits now
  cases reaction with
  | halted hhalted =>
    rw [hhalted] at on
    cases on
  | fails _ hpower =>
    rw [hpower] at on
    cases on
  | drops _ ready =>
    rw [ready_phase ready] at on
    cases on
  | plays _ ready =>
    rw [playCounted_phase, ready_phase ready] at on
    cases on
  | stops =>
    obtain ⟨schedule, hstop⟩ := shutDown_snd console
    rw [hstop] at on
    cases on
  | chooses => cases on
  | @accepts bytes =>
    rw [acceptStorage_phase] at on
    split at on
    · cases on
    · next hawait => exact absurd on hawait
  | waits asked hawait =>
    have hasks : asksLoad (console.take turn).1 = false := by
      rw [hresult]
      rfl
    rw [loadsBy_still hasks (plugsIn_of_phase (by rw [hawait]; decide) turn), leftBy_asked asked]
    exact h.last hawait
  | presses asked =>
    have hawait : console.phase = .awaitStorage := by
      dsimp only at on
      split at on
      · cases on
      · exact on
    have hasks : asksLoad (console.take turn).1 = false := by
      rw [hresult]
      rfl
    have hleft : loads.leftBy turn = loads.unanswered := by
      unfold Loads.leftBy
      rw [asked]
    rw [loadsBy_still hasks (plugsIn_of_phase (by rw [hawait]; decide) turn), hleft]
    exact h.last hawait
  | loads asked =>
    have hasks : asksLoad (console.take turn).1 = true := by
      rw [hresult]
      rfl
    unfold loadsBy
    dsimp only
    rw [if_pos hasks, leftBy_asked asked]
    exact ⟨_, rfl, rfl, h.numbered⟩

end

theorem queued_after (registry : Registry) (turns : List Turn) :
    Queued (({ registry } : Console).after turns)
      (({ registry } : Console).loadsAfter {} turns) := by
  induction turns using List.reverseRecOn with
  | nil =>
    refine ⟨fun _ hload => absurd hload List.not_mem_nil, fun on => ?_⟩
    cases on
  | append_singleton turns turn ih =>
    rw [after_concat, loadsAfter_concat]
    exact ih.take turn

theorem installs_foreign_of_queued {console : Console} {loads : Loads}
    (h : Queued console loads) (turn : Turn) :
    console.InstallsForeign loads turn ↔ console.accepts turn = true ∧ loads.before ≠ [] := by
  unfold InstallsForeign
  refine and_congr_right fun accepts => ?_
  have on : console.phase = .awaitStorage := by
    unfold Console.accepts at accepts
    split at accepts
    · simpa using accepts
    · cases accepts
  obtain ⟨own, hown, hunanswered, hbefore⟩ := h.last on
  rw [hown, hunanswered]
  cases hcase : loads.before with
  | nil => simp
  | cons first others =>
    rw [hcase] at hbefore
    have hfirst : first < own := hbefore first List.mem_cons_self
    simp [Nat.ne_of_lt hfirst]

/-- The host answers every load once and in order. An image is installed in a cartridge that did
    not ask for it exactly when the console takes an answer while it waits, and a load was still
    unanswered when its cartridge was plugged in. -/
theorem installs_foreign_iff (registry : Registry) (turns : List Turn) (turn : Turn) :
    (({ registry } : Console).after turns).InstallsForeign
        (({ registry } : Console).loadsAfter {} turns) turn ↔
      (({ registry } : Console).after turns).accepts turn = true ∧
        (({ registry } : Console).loadsAfter {} turns).before ≠ [] :=
  installs_foreign_of_queued (queued_after registry turns) turn

/-! ## A way there -/

/-- Choose a cartridge with a battery and plug it in: it asks for its stored image and waits. -/
theorem waits_plugged {console : Console} {bytes : Bytes} {cartridge : Cartridge}
    (on : console.phase ≠ .halted)
    (load : Cartridge.load console.registry bytes none = .ok cartridge)
    (battery : cartridge.battery = true) (files : Files) (buttons : UInt8 × UInt8)
    (loads : Loads) :
    let turns : List Turn := [⟨files, .insert (.image bytes)⟩, ⟨files, .frame buttons⟩]
    (console.answers turns).map storageOf = [[], [.load cartridge.image.key saveSize]] ∧
      console.loadsAfter loads turns =
        { issued := loads.issued + 1, unanswered := loads.unanswered ++ [loads.issued]
          own := some loads.issued, before := loads.unanswered } ∧
      (console.after turns).phase = .awaitStorage ∧
      (console.after turns).registry = console.registry ∧
      ∃ board irq, (console.after turns).battery? = some { cartridge with board, irq } := by
  let chosen : Console := { console with source := some (.image bytes), phase := .powerOn }
  have hinsert : console.take ⟨files, .insert (.image bytes)⟩ = (.ok {}, chosen) :=
    take_insert on files _
  have hload := @take_loads chosen ⟨files, .frame buttons⟩ _ _ rfl rfl load battery
  obtain ⟨⟨board, irq, hc⟩, hphase⟩ := powerOn_plugged chosen cartridge
  have hregistry : (chosen.powerOn cartridge).2.registry = console.registry := by
    rw [powerOn_eq]
    rfl
  -- what was switched on stays closed from here on
  generalize chosen.powerOn cartridge = result at hload hc hphase hregistry
  rw [if_pos battery] at hphase
  intro turns
  have hafter : console.after turns = result.2 := by
    show ((console.take _).2.take _).2 = result.2
    rw [hinsert, hload]
  refine ⟨?_, ?_, ?_, ?_, board, irq, ?_⟩
  · show [storageOf (console.take _).1, storageOf ((console.take _).2.take _).1] = _
    rw [hinsert, hload]
    rfl
  · have hstill := @loadsBy_still console loads ⟨files, .insert (.image bytes)⟩
      (by rw [hinsert]; rfl) (by simp [plugsIn, Turn.frame?])
    show (console.take _).2.loadsBy (console.loadsBy loads _) _ = _
    rw [hstill, hinsert]
    unfold loadsBy
    rw [hload]
    rfl
  · rw [hafter, hphase]
  · rw [hafter, hregistry]
  · rw [hafter]
    exact battery_eq_some.mpr ⟨hc, battery⟩

/-- A console that runs and is shut down hands its save RAM out. -/
theorem storage_shutdown {console : Console} {cartridge : Cartridge}
    (on : console.phase = .running) (plugged : console.battery? = some cartridge)
    (files : Files) :
    storageOf (console.take ⟨files, .shutdown⟩).1 =
      [.save cartridge.image.key cartridge.save.bytes] := by
  unfold take execute
  rw [if_neg (by simp [isHalted, on])]
  dsimp only
  unfold storageOf shutDown
  rw [if_neg (by simp [on]), save_eq plugged]

/-- `batteryHeader` with a byte behind it: another cartridge. -/
def paddedHeader : Bytes :=
  #[0x4E, 0x45, 0x53, 0x1A, 0, 0, 2, 0, 0, 0, 0, 0, 0, 0, 0, 0, 0xEE]

theorem key_paddedHeader : Digest.sha1 batteryHeader ≠ Digest.sha1 paddedHeader := by
  decide +kernel

/-- The answer to the first cartridge's load is installed in the second one, and stored under the
    second one's key when the console stops. -/
theorem installs_foreign_of_headers :
    let files : Files := fun _ => .ok #[]
    let turns : List Turn :=
      [⟨files, .insert (.image batteryHeader)⟩, ⟨files, .frame (0, 0)⟩,
        ⟨files, .insert (.image paddedHeader)⟩, ⟨files, .frame (0, 0)⟩]
    let console := ({} : Console).after turns
    let foreign : Turn := ⟨files, .storage #[0xAA]⟩
    console.InstallsForeign (({} : Console).loadsAfter {} turns) foreign ∧
      ∃ key key', key ≠ key' ∧
        (({} : Console).answers turns).map storageOf =
          [[], [.load key saveSize], [], [.load key' saveSize]] ∧
        storageOf ((console.take foreign).2.take ⟨files, .shutdown⟩).1 =
          [.save key' (Bytes.resize #[0xAA] saveSize 0)] := by
  intro files turns console foreign
  have hfirst : ∃ cartridge, Cartridge.load {} batteryHeader none = .ok cartridge ∧
      cartridge.battery = true ∧ cartridge.image.key = Digest.sha1 batteryHeader :=
    ⟨_, rfl, rfl, rfl⟩
  have hsecond : ∃ cartridge, Cartridge.load {} paddedHeader none = .ok cartridge ∧
      cartridge.battery = true ∧ cartridge.image.key = Digest.sha1 paddedHeader :=
    ⟨_, rfl, rfl, rfl⟩
  obtain ⟨first, load, battery, hkey⟩ := hfirst
  obtain ⟨second, load', battery', hkey'⟩ := hsecond
  let early : List Turn := [⟨files, .insert (.image batteryHeader)⟩, ⟨files, .frame (0, 0)⟩]
  let late : List Turn := [⟨files, .insert (.image paddedHeader)⟩, ⟨files, .frame (0, 0)⟩]
  obtain ⟨hasked, hloads, hphase, hregistry, _⟩ :=
    @waits_plugged {} batteryHeader first (by decide) load battery files (0, 0) {}
  obtain ⟨hasked', hloads', hphase', _, board, irq, hplugged⟩ :=
    @waits_plugged (({} : Console).after early) paddedHeader second (by rw [hphase]; decide)
      (by rw [hregistry]; exact load') battery' files (0, 0) (({} : Console).loadsAfter {} early)
  have hconsole : console = (({} : Console).after early).after late :=
    after_append {} early late
  obtain ⟨waiting, hwaiting⟩ : ∃ waiting, (({} : Console).after early).after late = waiting :=
    ⟨_, rfl⟩
  rw [hwaiting] at hphase' hplugged hconsole
  have hall : ({} : Console).loadsAfter {} turns =
      (({} : Console).after early).loadsAfter (({} : Console).loadsAfter {} early) late :=
    loadsAfter_append {} {} early late
  refine ⟨⟨?_, ?_⟩, first.image.key, second.image.key, ?_, ?_, ?_⟩
  · unfold accepts
    rw [hconsole]
    simpa [foreign] using hphase'
  · rw [hall, hloads', hloads]
    decide
  · rw [hkey, hkey']
    exact key_paddedHeader
  · have hanswers := answers_append {} early late
    show (({} : Console).answers (early ++ late)).map storageOf = _
    rw [hanswers, List.map_append, hasked, hasked']
    rfl
  · have hc := (battery_eq_some.mp hplugged).1
    have hbattery : second.image.header.battery = true := battery'
    rw [hconsole, take_accepts hphase' hc]
    have hsave := @storage_shutdown
      { waiting with
        schedule := .fresh second.save.writes
        cartridge := some { second with board, irq, save := second.save.load #[0xAA] }
        phase := .running } { second with board, irq, save := second.save.load #[0xAA] } rfl
      (battery_eq_some.mpr ⟨rfl, hbattery⟩) files
    rw [← SaveRam.bytes_load_resize second.save #[0xAA]]
    exact hsave

/-! ## A host that answers in time -/

section
variable {console : Console} {loads : Loads} {turn : Turn}

/-- Only a frame that plugs a cartridge in asks for a stored image. -/
theorem phase_of_asksLoad (plugged : PluggedIn console)
    (asks : asksLoad (console.take turn).1 = true) :
    console.phase = .powerOn ∧ loads.leftBy turn = loads.unanswered := by
  have reaction := take_reaction console turn
  generalize console.take turn = result at reaction asks
  cases reaction with
  | halted | waits | fails | presses | chooses | accepts | drops => cases asks
  | loads asked on => exact ⟨on, leftBy_asked asked⟩
  | @plays buttons drawn journal start asked ready =>
    obtain ⟨cartridge, hc⟩ := Option.isSome_iff_exists.mp (ready_running plugged ready).2
    obtain ⟨storage, schedule, hplay, hstorage⟩ := playCounted_eq hc buttons drawn
    rw [hplay] at asks
    obtain rfl | ⟨_, rfl⟩ := hstorage
    · cases asks
    · cases asks
  | stops =>
    unfold shutDown at asks
    dsimp only at asks
    split at asks
    · cases asks
    · unfold save at asks
      split at asks
      · cases asks
      · cases asks

/-- The console is about to plug a cartridge in if it was before, or if one was just chosen. -/
theorem powerOn_take (on : (console.take turn).2.phase = .powerOn) :
    asksLoad (console.take turn).1 = false ∧
      (console.phase = .powerOn ∨ ∃ source, turn.request = .insert source) := by
  have reaction := take_reaction console turn
  generalize console.take turn = result at reaction on ⊢
  cases reaction with
  | halted | waits | fails => exact ⟨rfl, .inl on⟩
  | @loads _ cartridge _ _ _ battery =>
    have hphase := (powerOn_plugged console cartridge).2
    rw [if_pos battery, on] at hphase
    cases hphase
  | drops _ ready =>
    rw [ready_phase ready] at on
    cases on
  | plays _ ready =>
    rw [playCounted_phase, ready_phase ready] at on
    cases on
  | presses =>
    refine ⟨rfl, .inl ?_⟩
    dsimp only at on
    split at on
    · cases on
    · exact on
  | stops =>
    obtain ⟨schedule, hstop⟩ := shutDown_snd console
    rw [hstop] at on
    cases on
  | chooses asked => exact ⟨rfl, .inr ⟨_, asked⟩⟩
  | accepts =>
    refine ⟨rfl, .inl ?_⟩
    rw [acceptStorage_phase] at on
    split at on
    · cases on
    · exact on

/-- Nothing is left to answer when a cartridge is to be plugged in, nor was there before. -/
structure Settled (console : Console) (loads : Loads) : Prop where
  unanswered : console.phase = .powerOn → loads.unanswered = []
  before : loads.before = []

theorem leftBy_nil (h : loads.unanswered = []) (turn : Turn) : loads.leftBy turn = [] := by
  refine List.eq_nil_iff_forall_not_mem.mpr fun load hload => ?_
  have hmem := mem_leftBy hload
  rw [h] at hmem
  exact List.not_mem_nil hmem

theorem Settled.take (h : Settled console loads) (plugged : PluggedIn console)
    (patient : ∀ source, turn.request = .insert source → loads.unanswered = []) :
    Settled (console.take turn).2 (console.loadsBy loads turn) := by
  refine ⟨fun on => ?_, ?_⟩
  · obtain ⟨hasks, hcause⟩ := powerOn_take on
    have hnone : loads.unanswered = [] := by
      rcases hcause with hpower | ⟨source, hinsert⟩
      · exact h.unanswered hpower
      · exact patient source hinsert
    unfold loadsBy
    dsimp only
    rw [hasks, if_neg Bool.false_ne_true, leftBy_nil hnone]
    split <;> rfl
  · unfold loadsBy
    dsimp only
    split
    · next asks =>
      obtain ⟨on, hleft⟩ := phase_of_asksLoad plugged asks
      exact hleft.trans (h.unanswered on)
    · split
      · rfl
      · exact h.before

theorem settled_after (h : Settled console loads) (plugged : PluggedIn console) {turns : List Turn}
    (patient : Patient console loads turns) :
    Settled (console.after turns) (console.loadsAfter loads turns) := by
  induction turns generalizing console loads with
  | nil => exact h
  | cons turn turns ih =>
    obtain ⟨hturn, hturns⟩ := patient
    exact ih (h.take plugged hturn) (pluggedIn_take plugged turn) hturns

end

/-- A host that answers every load before it chooses the next cartridge never brings an image to
    a cartridge that did not ask for it. -/
theorem own_of_patient (registry : Registry) {turns : List Turn}
    (patient : Patient { registry } {} turns) (turn : Turn) :
    ¬ (({ registry } : Console).after turns).InstallsForeign
      (({ registry } : Console).loadsAfter {} turns) turn := by
  have hnew : Settled { registry } {} := ⟨fun _ => rfl, rfl⟩
  have hsettled := settled_after hnew (pluggedIn_after registry []) patient
  rw [installs_foreign_of_queued (queued_after registry turns)]
  rintro ⟨_, hbefore⟩
  exact hbefore hsettled.before

end Console
end Nes
