/-
  A frame that is skipped differs from one that is drawn in its picture and in nothing else.

  The two are emulated side by side, line by line (`agree_lines`). On every line the PPU comes
  out the same whatever it draws into, because the sprite mark is right in every state that a
  console can get into. So sound, storage and the console after the frame are the same, but for
  the count of frames that went undrawn; and a sequence of requests none of whose skips is
  dropped gives what it would give with every frame drawn.
-/
import Nes.Proofs.Board.Actions
import Nes.Proofs.Console.Requests
import Nes.Proofs.Ppu.SpriteMarks

namespace Nes

/-! ## The sprite mark is right in every state -/

namespace System

/-- The sprite mark of the PPU is right. -/
def Marked (system : System) : Prop := system.hardware.ppu.sprites.Marked

theorem marked_onBoard {system : System} {act : Board → Image → Slot → Board × Slot}
    (run : ∀ board image slot, Slot.Run image slot (act board image slot).2)
    (h : system.Marked) : (system.onBoard act).Marked := by
  have hsprites : (system.onBoard act).slot.ppu.sprites = system.slot.ppu.sprites := by
    rw [onBoard_slot, (run _ _ _).ppu_eq]
  unfold Marked
  show (system.onBoard act).slot.ppu.sprites.Marked
  rw [hsprites]
  exact h

theorem marked_initBoard {system : System} (h : system.Marked) (kind : ResetKind) :
    (system.initBoard kind).Marked := by
  unfold initBoard
  exact marked_onBoard (fun board image slot => Board.run_init image slot board kind) h

theorem marked_step {a b : System} (step : Step a b) (h : a.Marked) : b.Marked := by
  cases step with
  | ppu f step => exact Ppu.marked_step step h
  | apu | io | writeWorkRam | writeSave => exact h
  | writeBoard addr data =>
    exact marked_onBoard (fun board image slot => Board.run_write image slot board addr data) h
  | preLine line =>
    exact marked_onBoard (fun board image slot => Board.run_preLine image slot board line) h
  | hblank line =>
    exact marked_onBoard (fun board image slot => Board.run_hblank image slot board line) h
  | vblank =>
    exact marked_onBoard (fun board image slot => Board.run_vblank image slot board) h
  | resetBoard => exact marked_initBoard h .soft

theorem invariant_marked (registry : Registry) : Invariant registry Marked where
  powerOn := by
    intro source files cartridge load
    have hnew : (plugged {} cartridge).Marked := SpriteLine.marked_empty
    exact marked_initBoard hnew .power
  step := marked_step
  forget h := h
  load _ h := h

end System

/-! ## Side by side -/

namespace Scan

/-- Two frames in the same state, but for their pictures. -/
structure Agree (s t : Scan) : Prop where
  machine : s.machine = t.machine
  sound : s.sound = t.sound

theorem agree_draw {s t : Scan} (h : Agree s t) (marked : s.machine.bus.Marked) (line : Nat) :
    Agree (s.draw line) (t.draw line) := by
  refine ⟨?_, h.sound⟩
  have hmarked := (run_beforeLine s.machine.bus line).keeps System.marked_step marked
  rw [draw_machine, draw_machine, ← h.machine]
  generalize beforeLine s.machine.bus line = system at hmarked
  have hppu : (system.mapPpu fun ppu => (ppu.renderScanline line s.picture).2) =
      system.mapPpu fun ppu => (ppu.renderScanline line t.picture).2 := by
    unfold System.mapPpu
    dsimp only
    rw [Ppu.renderScanline_snd_eq hmarked line s.picture t.picture]
  rw [hppu]

theorem agree_compute {s t : Scan} (h : Agree s t) (line : Nat) :
    Agree (s.compute line) (t.compute line) :=
  ⟨congrArg (·.runLine (UInt16.ofNat line)) h.machine, h.sound⟩

theorem agree_listen {s t : Scan} (h : Agree s t) : Agree s.listen t.listen := by
  obtain ⟨machine, picture, sound⟩ := s
  obtain ⟨machine', picture', sound'⟩ := t
  obtain ⟨hmachine, hsound⟩ := h
  cases hmachine
  cases hsound
  exact ⟨rfl, rfl⟩

theorem agree_line {s t : Scan} (h : Agree s t) (marked : s.machine.bus.Marked) (line : Nat) :
    Agree (s.line line) (t.line line) := by
  have hcompute := agree_compute (agree_draw h marked line) line
  unfold Scan.line
  dsimp only
  split
  · exact agree_listen hcompute
  · exact hcompute

theorem agree_lines {s t : Scan} (h : Agree s t) (marked : s.machine.bus.Marked)
    (lines : List Nat) : Agree (lines.foldl Scan.line s) (lines.foldl Scan.line t) := by
  induction lines generalizing s t with
  | nil => exact h
  | cons line lines ih =>
    exact ih (agree_line h marked line) ((run_line s line).keeps System.marked_step marked)

theorem agree_frame {s t : Scan} (h : Agree s t) (marked : s.machine.bus.Marked) :
    Agree s.frame t.frame := by
  unfold frame
  exact agree_lines h marked _

end Scan

/-- Whether a frame is to be skipped. -/
def Turn.isSkip (turn : Turn) : Bool :=
  match turn.request with
  | .skip _ => true
  | _ => false

/-- The request, with a frame drawn where it is to be skipped. -/
def Turn.drawn (turn : Turn) : Turn :=
  match turn.request with
  | .skip buttons => { turn with request := .frame buttons }
  | _ => turn

/-- A response without its picture. -/
def Response.unseen (response : Response) : Response := { response with screen := none }

namespace Console

/-! ## The count of undrawn frames -/

/-- The console with another count of undrawn frames. -/
def setSkipped (console : Console) (skipped : Nat) : Console := { console with skipped }

@[simp] theorem setSkipped_cpu (console : Console) (skipped : Nat) :
    (console.setSkipped skipped).cpu = console.cpu := rfl

@[simp] theorem setSkipped_hardware (console : Console) (skipped : Nat) :
    (console.setSkipped skipped).hardware = console.hardware := rfl

@[simp] theorem setSkipped_battery (console : Console) (skipped : Nat) :
    (console.setSkipped skipped).battery? = console.battery? := rfl

@[simp] theorem setSkipped_install (console : Console) (skipped : Nat)
    (machine : Machine System) :
    (console.setSkipped skipped).install machine = (console.install machine).setSkipped skipped :=
  rfl

@[simp] theorem setSkipped_start (console : Console) (skipped : Nat)
    (machine : Machine System) :
    (console.setSkipped skipped).start machine = console.start machine := rfl

@[simp] theorem setSkipped_restart (console : Console) (skipped : Nat)
    (machine : Machine System) :
    (console.setSkipped skipped).restart machine = console.restart machine := rfl

/-- The console as it would be if the last frame had been drawn. -/
def rested (console : Console) : Console := console.setSkipped 0

theorem rested_setSkipped (console : Console) (skipped : Nat) :
    (console.setSkipped skipped).rested = console.rested := rfl

theorem eq_setSkipped {console console' : Console} (h : console.rested = console'.rested) :
    console' = console.setSkipped console'.skipped := by
  obtain ⟨cpu, hardware, cartridge, registry, source, phase, skipped, schedule⟩ := console
  obtain ⟨cpu', hardware', cartridge', registry', source', phase', skipped', schedule'⟩ := console'
  cases h
  rfl

theorem save_setSkipped (console : Console) (skipped : Nat) :
    (console.setSkipped skipped).save = (console.save.1, console.save.2.setSkipped skipped) := by
  unfold save
  rw [setSkipped_battery]
  cases console.battery? with
  | none => rfl
  | some cartridge => rfl

theorem endFrame_setSkipped (console : Console) (skipped : Nat) :
    (console.setSkipped skipped).endFrame =
      (console.endFrame.1, console.endFrame.2.setSkipped skipped) := by
  unfold endFrame
  rw [setSkipped_battery]
  cases console.battery? with
  | none => rfl
  | some cartridge =>
    have hschedule : (console.setSkipped skipped).schedule = console.schedule := rfl
    dsimp only
    rw [hschedule]
    generalize console.schedule.endFrame cartridge.save.writes = result
    obtain ⟨due, schedule⟩ := result
    cases due with
    | false => rfl
    | true => exact save_setSkipped { console with schedule } skipped

theorem emulate_setSkipped (console : Console) (skipped : Nat) (buttons : UInt8 × UInt8)
    (drawn : Bool) :
    (console.setSkipped skipped).emulate buttons drawn =
      ((console.emulate buttons drawn).1,
        (console.emulate buttons drawn).2.setSkipped skipped) := by
  cases hc : console.cartridge with
  | none =>
    have hc' : (console.setSkipped skipped).cartridge = none := hc
    rw [emulate_none hc, emulate_none hc']
    rfl
  | some cartridge =>
    have hc' : (console.setSkipped skipped).cartridge = some cartridge := hc
    rw [emulate_some hc, emulate_some hc', setSkipped_cpu, setSkipped_hardware,
      setSkipped_install]

theorem play_setSkipped (console : Console) (skipped : Nat) (buttons : UInt8 × UInt8)
    (drawn : Bool) :
    (console.setSkipped skipped).play buttons drawn =
      ((console.play buttons drawn).1, (console.play buttons drawn).2.setSkipped skipped) := by
  unfold play
  rw [emulate_setSkipped]
  dsimp only
  rw [endFrame_setSkipped]

/-! ## One frame, drawn or not -/

/-- Two results that are the same but for the picture and the count of undrawn frames. -/
structure SameUnseen (a b : Except LoadError Response × Console) : Prop where
  answer : a.1.map Response.unseen = b.1.map Response.unseen
  console : a.2.rested = b.2.rested

theorem SameUnseen.refl (a : Except LoadError Response × Console) : SameUnseen a a := ⟨rfl, rfl⟩

theorem SameUnseen.trans {a b c : Except LoadError Response × Console} (h₁ : SameUnseen a b)
    (h₂ : SameUnseen b c) : SameUnseen a c :=
  ⟨h₁.answer.trans h₂.answer, h₁.console.trans h₂.console⟩

theorem unseen_outcome {s t : Scan} (hmachine : s.machine = t.machine)
    (hsound : s.sound = t.sound) : (outcome s).unseen = (outcome t).unseen := by
  unfold Response.unseen outcome
  dsimp only
  rw [hmachine, hsound]

theorem unseen_storage {r r' : Response} (h : r.unseen = r'.unseen)
    (storage : List StorageRequest) :
    ({ r with storage } : Response).unseen = ({ r' with storage } : Response).unseen := by
  show ({ r.unseen with storage } : Response) = { r'.unseen with storage }
  rw [h]

theorem unseen_journal {r r' : Response} (h : r.unseen = r'.unseen) (journal : Journal) :
    ({ r with journal := journal ++ r.journal } : Response).unseen =
      ({ r' with journal := journal ++ r'.journal } : Response).unseen := by
  show ({ r.unseen with journal := journal ++ r.unseen.journal } : Response) =
    { r'.unseen with journal := journal ++ r'.unseen.journal }
  rw [h]

/-- A response to a frame, with the notes from before it. -/
theorem sameUnseen_journal {a b : Response × Console} (hresponse : a.1.unseen = b.1.unseen)
    (hconsole : a.2.rested = b.2.rested) (journal : Journal) :
    SameUnseen (.ok { a.1 with journal := journal ++ a.1.journal }, a.2)
      (.ok { b.1 with journal := journal ++ b.1.journal }, b.2) :=
  ⟨congrArg Except.ok (unseen_journal hresponse journal), hconsole⟩

theorem emulate_unseen {registry : Registry} {console : Console}
    (h : Holds registry System.Marked console) (buttons : UInt8 × UInt8) (drawn drawn' : Bool) :
    (console.emulate buttons drawn).1.unseen = (console.emulate buttons drawn').1.unseen ∧
      (console.emulate buttons drawn).2 = (console.emulate buttons drawn').2 := by
  cases hc : console.cartridge with
  | none =>
    rw [emulate_none hc, emulate_none hc]
    exact ⟨rfl, rfl⟩
  | some cartridge =>
    let scan := opening console.cpu console.hardware cartridge buttons drawn
    let scan' := opening console.cpu console.hardware cartridge buttons drawn'
    have hopening : Scan.Agree scan scan' := ⟨rfl, rfl⟩
    have hmarked : scan.machine.bus.Marked := h.system cartridge hc
    obtain ⟨hmachine, hsound⟩ := Scan.agree_frame hopening hmarked
    rw [emulate_some hc, emulate_some hc]
    refine ⟨unseen_outcome hmachine hsound, ?_⟩
    dsimp only
    rw [hmachine]

theorem play_unseen {registry : Registry} {console : Console}
    (h : Holds registry System.Marked console) (buttons : UInt8 × UInt8) (drawn drawn' : Bool) :
    (console.play buttons drawn).1.unseen = (console.play buttons drawn').1.unseen ∧
      (console.play buttons drawn).2 = (console.play buttons drawn').2 := by
  obtain ⟨hresponse, hconsole⟩ := emulate_unseen h buttons drawn drawn'
  unfold play
  dsimp only
  rw [hconsole]
  exact ⟨unseen_storage hresponse _, rfl⟩

theorem advance_unseen {registry : Registry} {console : Console}
    (h : Holds registry System.Marked console) (buttons : UInt8 × UInt8)
    (kept : console.skipped < skipLimit) :
    (console.advance buttons false).1.unseen = (console.advance buttons true).1.unseen ∧
      (console.advance buttons false).2.rested = (console.advance buttons true).2.rested := by
  have hskip : console.advance buttons false =
      (console.setSkipped (console.skipped + 1)).play buttons false := by
    unfold advance
    rw [if_neg (by decide), if_neg (by omega)]
    rfl
  have hdraw : console.advance buttons true = (console.setSkipped 0).play buttons true := rfl
  obtain ⟨hresponse, hconsole⟩ := play_unseen h buttons false true
  rw [hskip, hdraw, play_setSkipped, play_setSkipped, hconsole]
  exact ⟨hresponse, rfl⟩

/-- Whether a request to skip the next frame is dropped: too many in a row would go undrawn. -/
def drops (console : Console) : Bool := console.phase = .running ∧ skipLimit ≤ console.skipped

theorem skipped_powerOn (console : Console) (cartridge : Cartridge) :
    (console.powerOn cartridge).2.skipped = 0 := by
  rw [powerOn_eq]
  rfl

theorem skipped_pressReset {console : Console} (h : console.cartridge.isSome = true) :
    console.pressReset.2.skipped = 0 := by
  obtain ⟨cartridge, hc⟩ := Option.isSome_iff_exists.mp h
  rw [pressReset_some hc]
  rfl

theorem firstFrame_unseen {registry : Registry} {cartridge : Cartridge}
    {result : Journal × Console} (h : Holds registry System.Marked result.2)
    (rested : result.2.skipped = 0) (buttons : UInt8 × UInt8) :
    SameUnseen (firstFrame cartridge result buttons false)
      (firstFrame cartridge result buttons true) := by
  unfold firstFrame
  split
  · exact .refl _
  · obtain ⟨hresponse, hconsole⟩ := advance_unseen h buttons (by rw [rested]; decide)
    exact sameUnseen_journal hresponse hconsole result.1

theorem runFrame_unseen {registry : Registry} {console : Console}
    (h : Holds registry System.Marked console) (plugged : PluggedIn console)
    (kept : console.drops = false) (files : Files) (buttons : UInt8 × UInt8) :
    SameUnseen (console.runFrame files buttons false) (console.runFrame files buttons true) := by
  have inv := System.invariant_marked registry
  cases on : console.phase with
  | powerOn =>
    cases load : console.chosen files with
    | error error =>
      rw [runFrame_error on load, runFrame_error on load]
      exact .refl _
    | ok cartridge =>
      obtain ⟨source, hload⟩ := chosen_ok h.registry_eq load
      rw [runFrame_powerOn on load, runFrame_powerOn on load]
      exact firstFrame_unseen (holds_powerOn inv h hload) (skipped_powerOn console cartridge)
        buttons
  | reset =>
    have hreset := holds_pressReset inv h
    have hskipped := skipped_pressReset (plugged (.inr (.inr on)))
    unfold runFrame
    rw [on]
    dsimp only
    obtain ⟨hresponse, hconsole⟩ := advance_unseen hreset buttons (by rw [hskipped]; decide)
    exact sameUnseen_journal hresponse hconsole console.pressReset.1
  | running =>
    have hskipped : console.skipped < skipLimit := by simpa [drops, on] using kept
    obtain ⟨hresponse, hconsole⟩ := advance_unseen h buttons hskipped
    unfold runFrame
    rw [on]
    exact ⟨congrArg Except.ok hresponse, hconsole⟩
  | awaitStorage | halted =>
    unfold runFrame
    rw [on]
    exact .refl _

/-- In a state that a new console can get into, a frame that is skipped and not dropped gives
    what a frame that is drawn gives, but for the picture. -/
theorem take_unseen {registry : Registry} {console : Console}
    (h : Holds registry System.Marked console) (plugged : PluggedIn console)
    (kept : console.drops = false) (files : Files) (buttons : UInt8 × UInt8) :
    SameUnseen (console.take ⟨files, .skip buttons⟩) (console.take ⟨files, .frame buttons⟩) := by
  unfold take execute
  split
  · exact .refl _
  · exact runFrame_unseen h plugged kept files buttons

theorem advance_drawn (console : Console) (buttons : UInt8 × UInt8) :
    console.advance buttons true = console.rested.play buttons true := rfl

theorem powerOn_setSkipped (console : Console) (skipped : Nat) (cartridge : Cartridge) :
    (console.setSkipped skipped).powerOn cartridge = console.powerOn cartridge := by
  rw [powerOn_eq, powerOn_eq, setSkipped_cpu, setSkipped_start]

theorem pressReset_setSkipped (console : Console) (skipped : Nat) :
    (console.setSkipped skipped).pressReset.1 = console.pressReset.1 ∧
      (console.setSkipped skipped).pressReset.2.rested = console.pressReset.2.rested := by
  cases hc : console.cartridge with
  | none =>
    have hc' : (console.setSkipped skipped).cartridge = none := hc
    rw [pressReset_none hc, pressReset_none hc']
    exact ⟨rfl, rfl⟩
  | some cartridge =>
    have hc' : (console.setSkipped skipped).cartridge = some cartridge := hc
    rw [pressReset_some hc, pressReset_some hc', setSkipped_cpu, setSkipped_hardware,
      setSkipped_restart]
    exact ⟨rfl, rfl⟩

theorem runFrame_setSkipped (console : Console) (skipped : Nat) (files : Files)
    (buttons : UInt8 × UInt8) :
    SameUnseen ((console.setSkipped skipped).runFrame files buttons true)
      (console.runFrame files buttons true) := by
  have hphase : (console.setSkipped skipped).phase = console.phase := rfl
  have hchosen : (console.setSkipped skipped).chosen files = console.chosen files := rfl
  cases on : console.phase with
  | powerOn =>
    cases load : console.chosen files with
    | error error =>
      rw [runFrame_error on load, runFrame_error (hphase.trans on) (hchosen.trans load)]
      exact ⟨rfl, rfl⟩
    | ok cartridge =>
      rw [runFrame_powerOn on load, runFrame_powerOn (hphase.trans on) (hchosen.trans load),
        powerOn_setSkipped]
      exact .refl _
  | reset =>
    obtain ⟨hjournal, hconsole⟩ := pressReset_setSkipped console skipped
    unfold runFrame
    rw [hphase, on]
    dsimp only
    rw [hjournal, advance_drawn, advance_drawn, hconsole]
    exact .refl _
  | running =>
    unfold runFrame
    rw [hphase, on]
    dsimp only
    rw [advance_drawn, advance_drawn, rested_setSkipped]
    exact .refl _
  | awaitStorage | halted =>
    unfold runFrame
    rw [hphase, on]
    exact ⟨rfl, rfl⟩

theorem acceptStorage_setSkipped (console : Console) (skipped : Nat) (bytes : Bytes) :
    (console.setSkipped skipped).acceptStorage bytes =
      (console.acceptStorage bytes).setSkipped skipped := by
  obtain ⟨cpu, hardware, cartridge, registry, source, phase, skipped', schedule⟩ := console
  unfold acceptStorage setSkipped
  dsimp only
  split
  · cases cartridge with
    | none => rfl
    | some cartridge => rfl
  · rfl

theorem shutDown_setSkipped (console : Console) (skipped : Nat) :
    (console.setSkipped skipped).shutDown =
      (console.shutDown.1, console.shutDown.2.setSkipped skipped) := by
  have hphase : (console.setSkipped skipped).phase = console.phase := rfl
  unfold shutDown
  rw [hphase, save_setSkipped]
  dsimp only
  split
  · rfl
  · rfl

theorem take_setSkipped (console : Console) (skipped : Nat) {turn : Turn}
    (h : turn.isSkip = false) :
    SameUnseen ((console.setSkipped skipped).take turn) (console.take turn) := by
  have hhalted : (console.setSkipped skipped).isHalted = console.isHalted := rfl
  unfold take execute
  rw [hhalted]
  cases console.isHalted with
  | true => exact ⟨rfl, rfl⟩
  | false =>
    cases hrequest : turn.request with
    | frame buttons => exact runFrame_setSkipped console skipped turn.files buttons
    | skip buttons =>
      unfold Turn.isSkip at h
      rw [hrequest] at h
      cases h
    | reset => exact ⟨rfl, rfl⟩
    | shutdown =>
      dsimp only
      rw [shutDown_setSkipped]
      exact ⟨rfl, rfl⟩
    | insert source => exact ⟨rfl, rfl⟩
    | storage bytes =>
      dsimp only
      rw [acceptStorage_setSkipped]
      exact ⟨rfl, rfl⟩

/-! ## Sequences of requests -/

/-- Whether no skip is dropped in a sequence of requests. -/
def noneDropped (console : Console) : List Turn → Bool
  | [] => true
  | turn :: turns => !(turn.isSkip && console.drops) && (console.take turn).2.noneDropped turns

theorem take_drawn {registry : Registry} {console console' : Console}
    (h : Holds registry System.Marked console) (plugged : PluggedIn console)
    (same : console.rested = console'.rested) {turn : Turn}
    (kept : (turn.isSkip && console.drops) = false) :
    SameUnseen (console.take turn) (console'.take turn.drawn) := by
  obtain ⟨files, request⟩ := turn
  rw [eq_setSkipped same]
  have hrequest {turn : Turn} (hturn : turn.isSkip = false) :
      SameUnseen (console.take turn) ((console.setSkipped console'.skipped).take turn) := by
    have hsame := take_setSkipped console console'.skipped hturn
    exact ⟨hsame.answer.symm, hsame.console.symm⟩
  cases request with
  | skip buttons =>
    have hkept : console.drops = false := kept
    exact (take_unseen h plugged hkept files buttons).trans (hrequest rfl)
  | frame | reset | shutdown | insert | storage => exact hrequest rfl

theorem answers_drawn {registry : Registry} {console console' : Console}
    (h : Holds registry System.Marked console) (plugged : PluggedIn console)
    (same : console.rested = console'.rested) {turns : List Turn}
    (kept : console.noneDropped turns = true) :
    (console.answers turns).map (·.map Response.unseen) =
        (console'.answers (turns.map Turn.drawn)).map (·.map Response.unseen) ∧
      (console.after turns).rested = (console'.after (turns.map Turn.drawn)).rested := by
  induction turns generalizing console console' with
  | nil => exact ⟨rfl, same⟩
  | cons turn turns ih =>
    have hkept : (turn.isSkip && console.drops) = false ∧
        (console.take turn).2.noneDropped turns = true := by
      unfold noneDropped at kept
      rw [Bool.and_eq_true, Bool.not_eq_true'] at kept
      exact kept
    have hturn := take_drawn h plugged same hkept.1
    obtain ⟨hanswers, hafter⟩ := ih (holds_take (System.invariant_marked registry) h turn)
      (pluggedIn_take plugged turn) hturn.console hkept.2
    refine ⟨?_, hafter⟩
    simp only [List.map_cons, answers]
    rw [hturn.answer, hanswers]

/-- After any sequence of requests to a new console, a frame that is skipped and not dropped
    gives the same sound, the same storage requests and the same notes as a frame that is drawn,
    or fails with the same error, and leaves the console in the same state. If no skip is dropped
    at all, all frames might as well have been drawn. -/
theorem skipped_eq_drawn (registry : Registry) (turns : List Turn) :
    let new : Console := { registry }
    (∀ (files : Files) (buttons : UInt8 × UInt8), (new.after turns).drops = false →
      SameUnseen ((new.after turns).take ⟨files, .skip buttons⟩)
        ((new.after turns).take ⟨files, .frame buttons⟩)) ∧
    (new.noneDropped turns = true →
      (new.answers turns).map (·.map Response.unseen) =
          (new.answers (turns.map Turn.drawn)).map (·.map Response.unseen) ∧
        (new.after turns).rested = (new.after (turns.map Turn.drawn)).rested) := by
  intro new
  have inv := System.invariant_marked registry
  constructor
  · intro files buttons kept
    exact take_unseen (holds_after inv turns) (pluggedIn_after registry turns) kept files buttons
  · intro kept
    exact answers_drawn (holds_after inv []) (pluggedIn_after registry []) rfl kept

/-- Sixteen bytes that load: NROM with no ROM at all. -/
def emptyRom : Bytes := #[0x4E, 0x45, 0x53, 0x1A, 0, 0, 0, 0, 0, 0, 0, 0, 0, 0, 0, 0]

theorem skipped_eq_drawn_of_emptyRom :
    let files : Files := fun _ => .ok #[]
    let insert : Turn := ⟨files, .insert (.image emptyRom)⟩
    let skip : Turn := ⟨files, .skip (0, 0)⟩
    let new : Console := {}
    (new.after [insert]).drops = false ∧
      SameUnseen ((new.after [insert]).take skip) ((new.after [insert]).take skip.drawn) ∧
      new.noneDropped [insert, skip] = true ∧
      (new.after [insert, skip]).rested = (new.after [insert, skip.drawn]).rested := by
  intro files insert skip new
  have hfirst : (new.after [insert]).drops = false := rfl
  have hnone : new.noneDropped [insert, skip] = true := rfl
  refine ⟨hfirst, ?_, hnone, ?_⟩
  · exact (skipped_eq_drawn {} [insert]).1 files (0, 0) hfirst
  · exact ((skipped_eq_drawn {} [insert, skip]).2 hnone).2

end Console
end Nes
