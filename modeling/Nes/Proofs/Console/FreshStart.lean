/-
  Nothing of what ran before shows when a cartridge is switched on.

  Two consoles with the same boards to build are told to plug the same cartridge in. Of all that
  happened to them before, one thing is left: the number of the scanline that the CPU ran last,
  which is only for diagnostics. So a console is compared with itself under another line number,
  `setLine`. Nothing but the next scanline looks at that number, and it replaces it. Every
  request therefore gives the same answer (`take_setLine`), and the first frame that is played
  leaves two consoles that do not differ at all. `fresh_start` says so of whole sequences of
  requests.
-/
import Nes.Proofs.Console.Answers

namespace Nes

/-! ## The line number, part by part -/

/-- The CPU with another line number. -/
def Cpu.setLine (cpu : Cpu) (line : UInt16) : Cpu := { cpu with line }

namespace Machine

variable {σ : Type} [Bus σ]

/-- The machine with another line number in its CPU. -/
def setLine (m : Machine σ) (line : UInt16) : Machine σ := ⟨m.cpu.setLine line, m.bus⟩

theorem reset_setLine (m : Machine σ) (line : UInt16) (kind : ResetKind) :
    (m.setLine line).reset kind = (m.reset kind).setLine line := by
  cases kind with
  | power => rfl
  | soft => rfl

/-- Power-on clears everything in the CPU but the line number. -/
theorem reset_power (cpu cpu' : Cpu) (bus : σ) :
    (⟨cpu', bus⟩ : Machine σ).reset .power =
      ((⟨cpu, bus⟩ : Machine σ).reset .power).setLine cpu'.line := rfl

end Machine

namespace Scan

/-- The frame with another line number in its CPU. -/
def setLine (scan : Scan) (line : UInt16) : Scan :=
  { scan with machine := scan.machine.setLine line }

/-- The first line replaces the number. -/
theorem line_setLine (scan : Scan) (old : UInt16) (line : Nat) :
    (scan.setLine old).line line = scan.line line := rfl

theorem lines_setLine (scan : Scan) (old : UInt16) {lines : List Nat} (scanned : lines ≠ []) :
    lines.foldl Scan.line (scan.setLine old) = lines.foldl Scan.line scan := by
  cases lines with
  | nil => exact absurd rfl scanned
  | cons line lines => rw [List.foldl_cons, List.foldl_cons, line_setLine]

end Scan

namespace Console

/-- The console with another line number in its CPU. -/
def setLine (console : Console) (line : UInt16) : Console :=
  { console with cpu := console.cpu.setLine line }

/-- Two consoles that are the same but for the CPU's line number. -/
def SameButLine (a b : Console) : Prop := a.setLine 0 = b.setLine 0

theorem sameButLine_setLine (console : Console) (line : UInt16) :
    SameButLine console (console.setLine line) := rfl

@[simp] theorem setLine_phase (console : Console) (line : UInt16) :
    (console.setLine line).phase = console.phase := rfl

@[simp] theorem setLine_cartridge (console : Console) (line : UInt16) :
    (console.setLine line).cartridge = console.cartridge := rfl

@[simp] theorem setLine_skipped (console : Console) (line : UInt16) :
    (console.setLine line).skipped = console.skipped := rfl

@[simp] theorem setLine_chosen (console : Console) (line : UInt16) (files : Files) :
    (console.setLine line).chosen files = console.chosen files := rfl

@[simp] theorem setLine_battery (console : Console) (line : UInt16) :
    (console.setLine line).battery? = console.battery? := rfl

/-! ## Switching on and starting over -/

theorem switchedOn_setLine (cpu : Cpu) (line : UInt16) (cartridge : Cartridge) :
    switchedOn (cpu.setLine line) cartridge = (switchedOn cpu cartridge).setLine line :=
  Machine.reset_setLine ⟨cpu, _⟩ line .power

theorem switchedOn_forgets (cpu cpu' : Cpu) (cartridge : Cartridge) :
    switchedOn cpu' cartridge = (switchedOn cpu cartridge).setLine cpu'.line :=
  Machine.reset_power cpu cpu' _

theorem start_setLine (console : Console) (line line' : UInt16) (machine : Machine System) :
    (console.setLine line).start (machine.setLine line') =
      (console.start machine).setLine line' := rfl

theorem powerOn_setLine (console : Console) (line : UInt16) (cartridge : Cartridge) :
    (console.setLine line).powerOn cartridge =
      ((console.powerOn cartridge).1, (console.powerOn cartridge).2.setLine line) := by
  have hcpu : (console.setLine line).cpu = console.cpu.setLine line := rfl
  rw [powerOn_eq, powerOn_eq, hcpu, switchedOn_setLine, start_setLine]
  -- what was switched on stays closed
  generalize switchedOn console.cpu cartridge = machine
  rfl

theorem startedOver_setLine (cpu : Cpu) (line : UInt16) (hardware : Hardware)
    (cartridge : Cartridge) :
    startedOver (cpu.setLine line) hardware cartridge =
      (startedOver cpu hardware cartridge).setLine line :=
  Machine.reset_setLine ⟨cpu, _⟩ line .soft

theorem restart_setLine (console : Console) (line line' : UInt16) (machine : Machine System) :
    (console.setLine line).restart (machine.setLine line') =
      (console.restart machine).setLine line' := rfl

theorem pressReset_setLine (console : Console) (line : UInt16) :
    (console.setLine line).pressReset =
      (console.pressReset.1, console.pressReset.2.setLine line) := by
  have hcpu : (console.setLine line).cpu = console.cpu.setLine line := rfl
  have hhardware : (console.setLine line).hardware = console.hardware := rfl
  cases hc : console.cartridge with
  | none =>
    have hc' : (console.setLine line).cartridge = none := hc
    rw [pressReset_none hc, pressReset_none hc']
    rfl
  | some cartridge =>
    have hc' : (console.setLine line).cartridge = some cartridge := hc
    rw [pressReset_some hc, pressReset_some hc', hcpu, hhardware, startedOver_setLine,
      restart_setLine]
    generalize startedOver console.cpu console.hardware cartridge = machine
    rfl

/-- What a console is when it is switched on depends on its registry, on what was chosen, and on
    nothing else but the line number. -/
theorem powerOn_forgets {console console' : Console}
    (registry : console'.registry = console.registry) (source : console'.source = console.source)
    (cartridge : Cartridge) :
    console'.powerOn cartridge = (console.setLine console'.cpu.line).powerOn cartridge := by
  have hstart (machine : Machine System) : console'.start machine = console.start machine := by
    unfold start install
    dsimp only
    rw [registry, source]
  rw [powerOn_setLine, powerOn_eq, powerOn_eq, switchedOn_forgets console.cpu, hstart]
  generalize switchedOn console.cpu cartridge = machine
  rfl

theorem ready_setLine (console : Console) (line : UInt16) (files : Files) :
    (console.setLine line).ready? files =
      (console.ready? files).map fun (journal, start) => (journal, start.setLine line) := by
  unfold ready?
  rw [setLine_phase, setLine_chosen]
  cases console.phase with
  | powerOn =>
    cases console.chosen files with
    | error error => rfl
    | ok cartridge =>
      cases battery : cartridge.battery with
      | true => simp [battery]
      | false => simp [battery, powerOn_setLine]
  | reset => simp [pressReset_setLine]
  | running => rfl
  | awaitStorage => rfl
  | halted => rfl

theorem begun_setLine (console : Console) (line : UInt16) (turn : Turn) :
    (console.setLine line).begun? turn = (console.begun? turn).map (·.setLine line) := by
  unfold begun?
  rw [ready_setLine]
  cases turn.frame? with
  | none => rfl
  | some frame =>
    cases console.ready? turn.files with
    | none => rfl
    | some result =>
      dsimp only [Option.map_some]
      rw [setLine_skipped]
      by_cases due : (frame.2 || result.2.skipped < skipLimit) = true
      · rw [if_pos due, if_pos due]
        rfl
      · rw [if_neg due, if_neg due]
        rfl

/-! ## Frames -/

/-- A frame replaces the line number. -/
theorem frame_setLine (cpu : Cpu) (line : UInt16) (hardware : Hardware) (cartridge : Cartridge)
    (buttons : UInt8 × UInt8) (drawn : Bool) :
    (opening (cpu.setLine line) hardware cartridge buttons drawn).frame =
      (opening cpu hardware cartridge buttons drawn).frame := by
  have scanned : List.range frameLines ≠ [] := by decide
  have h := Scan.lines_setLine (opening cpu hardware cartridge buttons drawn) line scanned
  unfold Scan.frame
  exact h

theorem emulate_setLine {console : Console} (plugged : console.cartridge.isSome = true)
    (line : UInt16) (buttons : UInt8 × UInt8) (drawn : Bool) :
    (console.setLine line).emulate buttons drawn = console.emulate buttons drawn := by
  obtain ⟨cartridge, hc⟩ := Option.isSome_iff_exists.mp plugged
  have hc' : (console.setLine line).cartridge = some cartridge := hc
  have hcpu : (console.setLine line).cpu = console.cpu.setLine line := rfl
  have hhardware : (console.setLine line).hardware = console.hardware := rfl
  rw [emulate_some hc, emulate_some hc', hcpu, hhardware, frame_setLine]
  rfl

theorem play_setLine {console : Console} (plugged : console.cartridge.isSome = true)
    (line : UInt16) (buttons : UInt8 × UInt8) (drawn : Bool) :
    (console.setLine line).play buttons drawn = console.play buttons drawn := by
  unfold play
  rw [emulate_setLine plugged]

theorem playCounted_setLine {start : Console} (plugged : start.cartridge.isSome = true)
    (line : UInt16) (buttons : UInt8 × UInt8) (drawn : Bool) :
    (start.setLine line).playCounted buttons drawn = start.playCounted buttons drawn := by
  have h (skipped : Nat) := @play_setLine { start with skipped } plugged line buttons drawn
  exact h (if drawn then 0 else start.skipped + 1)

/-- The frame that a request plays, if it plays one, after its first lines. -/
def scanAt (console : Console) (turn : Turn) (count : Nat) : Option Scan :=
  match turn.frame?, console.begun? turn with
  | some (buttons, drawn), some start =>
    start.cartridge.map fun cartridge =>
      (List.range count).foldl Scan.line
        (opening start.cpu start.hardware cartridge buttons drawn)
  | _, _ => none

/-- From the first line on, a frame does not depend on the old line number. -/
theorem scanAt_setLine (console : Console) (line : UInt16) (turn : Turn) {count : Nat}
    (scanned : 0 < count) :
    (console.setLine line).scanAt turn count = console.scanAt turn count := by
  have hrange : List.range count ≠ [] := by
    rw [Ne, List.range_eq_nil]
    omega
  unfold scanAt
  rw [begun_setLine]
  cases turn.frame? with
  | none => rfl
  | some frame =>
    cases console.begun? turn with
    | none => rfl
    | some start =>
      cases hc : start.cartridge with
      | none => simp [hc]
      | some cartridge =>
        have hc' : (start.setLine line).cartridge = .some cartridge := hc
        have h := Scan.lines_setLine
          (opening start.cpu start.hardware cartridge frame.1 frame.2) line hrange
        simp only [Option.map_some, hc, hc']
        exact congrArg Option.some h

/-! ## Requests -/

theorem save_setLine (console : Console) (line : UInt16) :
    (console.setLine line).save = (console.save.1, console.save.2.setLine line) := by
  unfold save
  rw [setLine_battery]
  cases console.battery? with
  | none => rfl
  | some cartridge => rfl

theorem shutDown_setLine (console : Console) (line : UInt16) :
    (console.setLine line).shutDown =
      (console.shutDown.1, console.shutDown.2.setLine line) := by
  unfold shutDown
  rw [setLine_phase, save_setLine]
  dsimp only
  split
  · rfl
  · rfl

theorem acceptStorage_setLine (console : Console) (line : UInt16) (bytes : Bytes) :
    (console.setLine line).acceptStorage bytes =
      (console.acceptStorage bytes).setLine line := by
  obtain ⟨cpu, hardware, cartridge, registry, source, phase, skipped, schedule⟩ := console
  unfold acceptStorage setLine
  dsimp only
  split
  · cases cartridge with
    | none => rfl
    | some cartridge => rfl
  · rfl

/-- A request that plays no frame is met the same way under another line number. -/
theorem reaction_setLine {console : Console} {turn : Turn}
    {result : Except LoadError Response × Console} (h : Reaction console turn result)
    (still : console.begun? turn = none) (line : UInt16) :
    Reaction (console.setLine line) turn (result.1, result.2.setLine line) := by
  cases h with
  | halted on => exact .halted on
  | waits asked on => exact .waits asked on
  | fails asked on load => exact .fails asked on load
  | @loads frame cartridge asked on load battery =>
    have h := @Reaction.loads (console.setLine line) turn frame cartridge asked on load battery
    rw [powerOn_setLine] at h
    generalize console.powerOn cartridge = result at h ⊢
    exact h
  | drops asked ready full =>
    refine .drops asked ?_ full
    rw [ready_setLine, ready]
    rfl
  | plays asked ready due =>
    have hbegun := begun_eq_some.mpr ⟨_, _, _, asked, ready, due⟩
    rw [still] at hbegun
    cases hbegun
  | presses asked on => exact .presses asked on
  | stops asked on =>
    have h := @Reaction.stops (console.setLine line) turn asked on
    rw [shutDown_setLine] at h
    exact h
  | chooses asked on => exact .chooses asked on
  | accepts asked on =>
    rw [← acceptStorage_setLine]
    exact .accepts asked on

/-- A request gives the same answer under another line number, and a frame that is played leaves
    the same console. -/
theorem take_setLine {console : Console} (plugged : PluggedIn console) (line : UInt16)
    (turn : Turn) :
    (console.setLine line).take turn =
      ((console.take turn).1,
        if (console.begun? turn).isSome then (console.take turn).2
        else (console.take turn).2.setLine line) := by
  cases begun : console.begun? turn with
  | none =>
    have h := reaction_setLine (take_reaction console turn) begun line
    exact h.eq_take.symm
  | some start =>
    obtain ⟨buttons, drawn, journal, asked, ready, due⟩ := begun_eq_some.mp begun
    have ready' : (console.setLine line).ready? turn.files =
        some (journal, start.setLine line) := by
      rw [ready_setLine, ready]
      rfl
    have due' : (drawn || (start.setLine line).skipped < skipLimit) = true := due
    have hplay := playCounted_setLine (ready_running plugged ready).2 line buttons drawn
    rw [take_ready asked ready, take_ready asked ready', advance_due due, advance_due due', hplay]
    rfl

/-! ## Sequences of requests -/

theorem answers_setLine {console : Console} (plugged : PluggedIn console) (line : UInt16)
    (turns : List Turn) : (console.setLine line).answers turns = console.answers turns := by
  induction turns generalizing console with
  | nil => rfl
  | cons turn turns ih =>
    unfold answers
    rw [take_setLine plugged]
    dsimp only
    split
    · rfl
    · rw [ih (pluggedIn_take plugged turn)]

/-- Whether a frame is played in the course of a sequence of requests. -/
def playsFrame (console : Console) (turns : List Turn) : Bool :=
  (console.steps turns).any fun step => (step.1.emulated? step.2).isSome

theorem playsFrame_cons {console : Console} (plugged : PluggedIn console) (turn : Turn)
    (turns : List Turn) :
    console.playsFrame (turn :: turns) =
      ((console.begun? turn).isSome || (console.take turn).2.playsFrame turns) := by
  unfold playsFrame
  rw [steps, List.any_cons, isSome_emulated plugged]

theorem after_setLine {console : Console} (plugged : PluggedIn console) (line : UInt16)
    (turns : List Turn) :
    (console.setLine line).after turns =
      if console.playsFrame turns then console.after turns
      else (console.after turns).setLine line := by
  induction turns generalizing console with
  | nil => rfl
  | cons turn turns ih =>
    rw [after_cons, after_cons, take_setLine plugged, playsFrame_cons plugged]
    cases (console.begun? turn).isSome with
    | true => rfl
    | false => exact ih (pluggedIn_take plugged turn)

/-! ## Switching on after two histories -/

theorem chosen_forgets {console console' : Console}
    (registry : console'.registry = console.registry)
    (source : console'.source = console.source) (files : Files) :
    console'.chosen files = console.chosen files := by
  unfold chosen
  rw [source, registry]

section
variable {console console' : Console} {turn : Turn} {cartridge : Cartridge}
  (on : console.phase = .powerOn) (on' : console'.phase = .powerOn)
  (registry : console'.registry = console.registry) (source : console'.source = console.source)
  (load : console.chosen turn.files = .ok cartridge)
include on on' registry source load

theorem begun_forgets :
    console'.begun? turn = (console.setLine console'.cpu.line).begun? turn := by
  have hready : console'.ready? turn.files =
      (console.setLine console'.cpu.line).ready? turn.files := by
    unfold ready?
    rw [setLine_phase, setLine_chosen, on, on', chosen_forgets registry source, load]
    dsimp only
    rw [powerOn_forgets registry source]
  unfold begun?
  rw [hready]

theorem scanAt_forgets {count : Nat} (scanned : 0 < count) :
    console'.scanAt turn count = console.scanAt turn count := by
  rw [← scanAt_setLine console console'.cpu.line turn scanned]
  unfold scanAt
  rw [begun_forgets on on' registry source load]

theorem take_forgets {frame : (UInt8 × UInt8) × Bool} (asked : turn.frame? = some frame) :
    console'.take turn = (console.setLine console'.cpu.line).take turn := by
  obtain ⟨buttons, drawn⟩ := frame
  have load' : console'.chosen turn.files = .ok cartridge :=
    (chosen_forgets registry source turn.files).trans load
  have hload : (console.setLine console'.cpu.line).chosen turn.files = .ok cartridge := load
  have hon : (console.setLine console'.cpu.line).phase = .powerOn := on
  rw [take_asked (by rw [on']; decide) asked, take_asked (by rw [hon]; decide) asked,
    runFrame_powerOn on' load', runFrame_powerOn hon hload, powerOn_forgets registry source]

theorem answers_forgets (plugged : PluggedIn console) {frame : (UInt8 × UInt8) × Bool}
    (asked : turn.frame? = some frame) (rest : List Turn) :
    console'.answers (turn :: rest) = console.answers (turn :: rest) := by
  rw [← answers_setLine plugged console'.cpu.line]
  unfold answers
  rw [take_forgets on on' registry source load asked]

theorem after_forgets (plugged : PluggedIn console) {frame : (UInt8 × UInt8) × Bool}
    (asked : turn.frame? = some frame) (rest : List Turn) :
    console'.after (turn :: rest) =
      if console.playsFrame (turn :: rest) then console.after (turn :: rest)
      else (console.after (turn :: rest)).setLine console'.cpu.line := by
  rw [← after_setLine plugged, after_cons, after_cons,
    take_forgets on on' registry source load asked]

end

/-- Choose a cartridge that loads, and let a frame switch it on: whatever the console did before,
    from then on every request gives the same answer, and the console is the same but for the
    CPU's line number. Every frame is the same from its first line on, and with the first frame
    that is played the difference is gone. -/
theorem fresh_start {registry : Registry} {source : Source} {files : Files}
    {cartridge : Cartridge} (load : source.load files registry = .ok cartridge)
    (turns turns' : List Turn) (on : (({ registry } : Console).after turns).phase ≠ .halted)
    (on' : (({ registry } : Console).after turns').phase ≠ .halted) (early : Files)
    (buttons : UInt8 × UInt8) (rest : List Turn) :
    let console := ({ registry } : Console).after turns
    let console' := ({ registry } : Console).after turns'
    let played : List Turn := ⟨early, .insert source⟩ :: ⟨files, .frame buttons⟩ :: rest
    console.answers played = console'.answers played ∧
      SameButLine (console.after played) (console'.after played) ∧
      (console.playsFrame played = true → console.after played = console'.after played) ∧
      (∀ before turn later, before ≠ [] → played = before ++ turn :: later →
        ∀ count, 0 < count →
          (console.after before).scanAt turn count =
            (console'.after before).scanAt turn count) := by
  intro console console' played
  let insert : Turn := ⟨early, .insert source⟩
  let frame : Turn := ⟨files, .frame buttons⟩
  let chosen : Console := { console with source := some source, phase := .powerOn }
  let chosen' : Console := { console' with source := some source, phase := .powerOn }
  have hchoose : console.take insert = (.ok {}, chosen) := take_insert on early source
  have hchoose' : console'.take insert = (.ok {}, chosen') := take_insert on' early source
  have plugged : PluggedIn chosen := by
    have h := pluggedIn_take (pluggedIn_after registry turns) insert
    rwa [hchoose] at h
  have hregistry : chosen'.registry = chosen.registry :=
    (registry_after registry turns').trans (registry_after registry turns).symm
  have hload : chosen.chosen frame.files = .ok cartridge := by
    have hown : chosen.registry = registry := registry_after registry turns
    unfold Console.chosen
    rw [hown]
    exact load
  have asked : frame.frame? = some (buttons, true) := rfl
  have hafter := after_forgets rfl rfl hregistry rfl hload plugged asked
  refine ⟨?answers, ?same, ?equal, ?frames⟩
  case answers =>
    have hanswers := answers_forgets rfl rfl hregistry rfl hload plugged asked rest
    show (console.take insert).1 :: (console.take insert).2.answers (frame :: rest) =
      (console'.take insert).1 :: (console'.take insert).2.answers (frame :: rest)
    rw [hchoose, hchoose', hanswers]
  case same =>
    show SameButLine ((console.take insert).2.after (frame :: rest))
      ((console'.take insert).2.after (frame :: rest))
    rw [hchoose, hchoose', hafter rest]
    split
    · rfl
    · exact sameButLine_setLine _ _
  case equal =>
    intro hplays
    have hplayed : chosen.playsFrame (frame :: rest) = true := by
      have hcons := playsFrame_cons (pluggedIn_after registry turns) insert (frame :: rest)
      rw [hchoose] at hcons
      exact hcons.symm.trans hplays
    show (console.take insert).2.after (frame :: rest) =
      (console'.take insert).2.after (frame :: rest)
    rw [hchoose, hchoose', hafter rest, if_pos hplayed]
  case frames =>
    intro before turn later started hsplit count hcount
    cases before with
    | nil => exact absurd rfl started
    | cons first before =>
      obtain ⟨rfl, hrest⟩ := List.cons.inj hsplit
      show ((console.take insert).2.after before).scanAt turn count =
        ((console'.take insert).2.after before).scanAt turn count
      rw [hchoose, hchoose']
      cases before with
      | nil =>
        obtain ⟨rfl, _⟩ := List.cons.inj hrest
        exact (scanAt_forgets rfl rfl hregistry rfl hload hcount).symm
      | cons second before =>
        obtain ⟨rfl, _⟩ := List.cons.inj hrest
        rw [hafter before]
        split
        · rfl
        · exact (scanAt_setLine _ _ turn hcount).symm

/-- A console that has played a frame, and a new one, with the same cartridge to come. -/
theorem fresh_start_of_headers :
    let files : Files := fun _ => .ok #[]
    let insert (bytes : Bytes) : Turn := ⟨files, .insert (.image bytes)⟩
    let frame : Turn := ⟨files, .frame (0, 0)⟩
    let used : List Turn := [insert emptyRom] ++ [frame]
    let played : List Turn := [insert batteryHeader, frame, ⟨files, .storage #[]⟩, frame]
    (({} : Console).after used).phase = .running ∧
      (({} : Console).after used).answers played = ({} : Console).answers played ∧
      SameButLine ((({} : Console).after used).after played) (({} : Console).after played) := by
  intro files insert frame used played
  have hbegun : ∃ start, (({} : Console).after [insert emptyRom]).begun? frame = some start :=
    ⟨_, rfl⟩
  obtain ⟨start, begun⟩ := hbegun
  have hrunning := (running_of_begun (pluggedIn_after {} [insert emptyRom]) begun).1
  rw [← after_concat] at hrunning
  have hload : ∃ cartridge,
      (Source.image batteryHeader).load files {} = .ok cartridge := ⟨_, rfl⟩
  obtain ⟨cartridge, load⟩ := hload
  have on : (({} : Console).after used).phase ≠ .halted := by
    rw [hrunning]
    decide
  have on' : (({} : Console).after []).phase ≠ .halted := fun h => nomatch h
  have hfresh := fresh_start load used [] on on' files (0, 0) [⟨files, .storage #[]⟩, frame]
  exact ⟨hrunning, hfresh.1, hfresh.2.1⟩

end Console
end Nes
