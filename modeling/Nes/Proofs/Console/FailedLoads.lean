/-
  A cartridge that cannot be loaded leaves no trace.

  Only a request for a frame can fail, and only where the frame has to switch a cartridge on.
  `Refused` lists the causes, each with the error that is given for it, and
  `take_eq_error_iff` says that there are no others. Whatever the cause, the console is what it
  was before (`take_error`), with whatever cartridge was plugged in and chosen. So a history may
  drop its failures (`fulfilled`): it leads to the same console and gives the same answers
  (`after_fulfilled`, `answers_fulfilled`).

  After a failure the same request is made again, with another cartridge chosen or with the chosen
  one mended. It is then answered, and that request and all later ones are answered as a new
  console answers them (`Alike`).
-/
import Nes.Proofs.Console.FreshStart
import Nes.Proofs.Image.Sections

namespace Nes

namespace Source

/-- The bytes of the image, if they can be had. -/
def bytes? (files : Files) : Source → Option Bytes
  | .file path => (files path).toOption
  | .image bytes | .imageFor _ bytes => some bytes

/-- The number of the board that an image is plugged into. -/
def boardNumber (bytes : Bytes) : Source → UInt16
  | .imageFor id _ => id
  | .file _ | .image _ => (Image.declaredHeader bytes).mapper

end Source

/-- Why what was chosen cannot be loaded, and the error that says so. -/
inductive Refused (files : Files) (registry : Registry) : Option Source → LoadError → Prop
  /-- No cartridge was ever chosen. -/
  | nothingChosen : Refused files registry none .noCartridge
  /-- The file cannot be read. -/
  | unreadable {path : String} {fault : FileFault} (read : files path = .error fault) :
      Refused files registry (some (.file path)) (.unreadable path fault)
  /-- The header is short or bad, or a section is short. -/
  | malformed {source : Source} {bytes : Bytes} {error : LoadError}
      (held : source.bytes? files = some bytes) (fault : Image.fault? bytes = some error) :
      Refused files registry (some source) error
  /-- There is no board with the image's number. -/
  | noBoard {source : Source} {bytes : Bytes} (held : source.bytes? files = some bytes)
      (sound : Image.fault? bytes = none)
      (unknown : registry.find? (source.boardNumber bytes) = none) :
      Refused files registry (some source) (.unsupportedMapper (source.boardNumber bytes))

/-- An image is refused for its first fault, or else for its board. -/
theorem Cartridge.load_eq_error_iff (registry : Registry) (bytes : Bytes) (id : Option UInt16)
    (error : LoadError) :
    Cartridge.load registry bytes id = .error error ↔
      Image.fault? bytes = some error ∨
        Image.fault? bytes = none ∧
          registry.find? (id.getD (Image.declaredHeader bytes).mapper) = none ∧
          error = .unsupportedMapper (id.getD (Image.declaredHeader bytes).mapper) := by
  show (Image.parse bytes).bind (fun image =>
    (registry.build (id.getD image.header.mapper)).bind fun board =>
      .ok (Cartridge.ofImage image board)) = _ ↔ _
  rw [Image.parse_eq]
  cases hfault : Image.fault? bytes with
  | some fault => simp [Except.bind]
  | none =>
    have hheader : (Image.slices bytes).header = Image.declaredHeader bytes := rfl
    simp only [Option.elim_none, Except.bind, hheader, Registry.build]
    cases hfind : registry.find? (id.getD (Image.declaredHeader bytes).mapper) with
    | none => simp [eq_comm]
    | some board => simp

theorem Source.load_held {files : Files} {source : Source} {bytes : Bytes}
    (held : source.bytes? files = some bytes) (registry : Registry) :
    ∃ id : Option UInt16, source.load files registry = Cartridge.load registry bytes id ∧
      id.getD (Image.declaredHeader bytes).mapper = source.boardNumber bytes := by
  cases source with
  | file path =>
    simp only [bytes?] at held
    simp only [load]
    cases hread : files path with
    | ok found =>
      rw [hread] at held
      cases held
      exact ⟨none, rfl, rfl⟩
    | error fault =>
      rw [hread] at held
      cases held
  | image found =>
    cases held
    exact ⟨none, rfl, rfl⟩
  | imageFor id found =>
    cases held
    exact ⟨some id, rfl, rfl⟩

theorem refused_iff_of_held {files : Files} {source : Source} {bytes : Bytes}
    (held : source.bytes? files = some bytes) (registry : Registry) (error : LoadError) :
    source.load files registry = .error error ↔ Refused files registry (some source) error := by
  obtain ⟨id, hload, hid⟩ := Source.load_held held registry
  rw [hload, Cartridge.load_eq_error_iff, hid]
  constructor
  · rintro (fault | ⟨sound, unknown, rfl⟩)
    · exact .malformed held fault
    · exact .noBoard held sound unknown
  · intro refused
    cases refused with
    | unreadable read =>
      simp only [Source.bytes?, read] at held
      cases held
    | malformed held' fault =>
      cases held.symm.trans held'
      exact .inl fault
    | noBoard held' sound unknown =>
      cases held.symm.trans held'
      exact .inr ⟨sound, unknown, rfl⟩

theorem refused_iff (files : Files) (registry : Registry) (source : Source) (error : LoadError) :
    source.load files registry = .error error ↔ Refused files registry (some source) error := by
  cases source with
  | image | imageFor => exact refused_iff_of_held rfl registry error
  | file path =>
    cases hread : files path with
    | ok bytes =>
      have held : (Source.file path).bytes? files = some bytes := by
        simp only [Source.bytes?, hread]
        rfl
      exact refused_iff_of_held held registry error
    | error fault =>
      simp only [Source.load, hread]
      constructor
      · intro h
        cases h
        exact .unreadable hread
      · intro refused
        cases refused with
        | unreadable read =>
          cases hread.symm.trans read
          rfl
        | malformed held | noBoard held =>
          simp only [Source.bytes?, hread] at held
          cases held

namespace Console

theorem chosen_eq_error_iff (console : Console) (files : Files) (error : LoadError) :
    console.chosen files = .error error ↔
      Refused files console.registry console.source error := by
  unfold chosen
  cases console.source with
  | none =>
    constructor
    · intro h
      cases h
      exact .nothingChosen
    · intro h
      cases h
      rfl
  | some source => exact refused_iff files console.registry source error

/-! ## A request that fails -/

/-- Only a frame fails, only at power-on, and only for one of the causes. -/
theorem take_eq_error_iff (console : Console) (turn : Turn) (error : LoadError) :
    (console.take turn).1 = .error error ↔
      turn.frame?.isSome = true ∧ console.phase = .powerOn ∧
        Refused turn.files console.registry console.source error := by
  rw [← chosen_eq_error_iff]
  constructor
  · intro failed
    have reaction := take_reaction console turn
    generalize console.take turn = result at reaction failed
    cases reaction with
    | fails asked on load =>
      cases failed
      exact ⟨by rw [asked]; rfl, on, load⟩
    | halted | waits | loads | drops | plays | presses | stops | chooses | accepts => cases failed
  · rintro ⟨asked, on, load⟩
    obtain ⟨frame, asked⟩ := Option.isSome_iff_exists.mp asked
    rw [← (Reaction.fails asked on load).eq_take]

/-- A request that fails changes nothing. -/
theorem take_error {console : Console} {turn : Turn} {error : LoadError}
    (failed : (console.take turn).1 = .error error) : (console.take turn).2 = console := by
  have reaction := take_reaction console turn
  generalize console.take turn = result at reaction failed
  cases reaction with
  | fails => rfl
  | halted | waits | loads | drops | plays | presses | stops | chooses | accepts => cases failed

/-! ## Histories without their failures -/

/-- The requests of a sequence that do not fail. -/
def fulfilled (console : Console) : List Turn → List Turn
  | [] => []
  | turn :: turns =>
    if (console.take turn).1.isOk then turn :: fulfilled (console.take turn).2 turns
    else fulfilled console turns

theorem take_of_not_ok {console : Console} {turn : Turn}
    (h : ¬ (console.take turn).1.isOk = true) : (console.take turn).2 = console := by
  cases hanswer : (console.take turn).1 with
  | error error => exact take_error hanswer
  | ok response =>
    rw [hanswer] at h
    exact absurd rfl h

theorem after_fulfilled (console : Console) (turns : List Turn) :
    console.after (console.fulfilled turns) = console.after turns := by
  induction turns generalizing console with
  | nil => rfl
  | cons turn turns ih =>
    unfold fulfilled
    split
    · exact ih (console.take turn).2
    · next failed =>
      rw [ih, after_cons, take_of_not_ok failed]

theorem answers_fulfilled (console : Console) (turns : List Turn) :
    console.answers (console.fulfilled turns) = (console.answers turns).filter (·.isOk) := by
  induction turns generalizing console with
  | nil => rfl
  | cons turn turns ih =>
    rw [fulfilled]
    conv_rhs => rw [answers]
    split
    · next ok =>
      rw [List.filter_cons_of_pos ok]
      exact congrArg _ (ih (console.take turn).2)
    · next failed =>
      rw [List.filter_cons_of_neg failed, take_of_not_ok failed]
      exact ih console

/-! ## The request is made again -/

/-- Two consoles on which a sequence of requests cannot be told apart: the answers are the same,
    and the consoles after it are but for the number of the last scanline, which is gone with the
    first frame. -/
structure Alike (console console' : Console) (turns : List Turn) : Prop where
  answers : console.answers turns = console'.answers turns
  same : SameButLine (console.after turns) (console'.after turns)
  equal : console.playsFrame turns = true → console.after turns = console'.after turns

/-- A request that plays no frame, put in front. -/
theorem Alike.cons {console console' : Console} {turn : Turn} {turns : List Turn}
    (rest : Alike (console.take turn).2 (console'.take turn).2 turns)
    (answer : (console.take turn).1 = (console'.take turn).1) (plugged : PluggedIn console)
    (still : console.begun? turn = none) : Alike console console' (turn :: turns) := by
  refine ⟨?_, rest.same, fun plays => rest.equal ?_⟩
  · show (console.take turn).1 :: _ = (console'.take turn).1 :: _
    rw [answer, rest.answers]
  · rw [playsFrame_cons plugged, still] at plays
    exact plays

/-- With a cartridge that can be loaded no request fails. -/
theorem take_loadable {console : Console} {turn : Turn} {cartridge : Cartridge}
    (load : console.chosen turn.files = .ok cartridge) :
    ∃ response, (console.take turn).1 = .ok response := by
  cases answer : (console.take turn).1 with
  | ok response => exact ⟨response, rfl⟩
  | error error =>
    have refused := ((take_eq_error_iff console turn error).mp answer).2.2
    rw [← chosen_eq_error_iff, load] at refused
    cases refused

section
variable {registry : Registry} {source : Source} {files : Files} {cartridge : Cartridge}
  (load : source.load files registry = .ok cartridge) {console : Console}
  (own : console.registry = registry)
include load own

theorem chosen_of_load (chosen : console.source = some source) :
    console.chosen files = .ok cartridge := by
  unfold Console.chosen
  rw [chosen, own]
  exact load

/-- A console that is to switch a loadable cartridge on does so like a new one. -/
theorem alike_new {turn : Turn} (asked : turn.frame?.isSome = true)
    (on : console.phase = .powerOn) (chosen : console.source = some source)
    (plugged : PluggedIn console) (early : Files) (rest : List Turn) :
    let again : Turn := { turn with files }
    (∃ response, (console.take again).1 = .ok response) ∧
      Alike console (({ registry } : Console).take ⟨early, .insert source⟩).2
        (again :: rest) := by
  intro again
  have hchosen : console.chosen again.files = .ok cartridge := chosen_of_load load own chosen
  -- a new console in which the same was chosen
  let fresh : Console := { registry, source := some source }
  have hinsert : ({ registry } : Console).take ⟨early, .insert source⟩ = (.ok {}, fresh) :=
    take_insert (by simp) early source
  obtain ⟨frame, asked⟩ := Option.isSome_iff_exists.mp asked
  have asked : again.frame? = some frame := asked
  refine ⟨take_loadable hchosen, ?_⟩
  rw [hinsert]
  have hanswers : fresh.answers (again :: rest) = console.answers (again :: rest) :=
    answers_forgets on rfl own.symm chosen.symm hchosen plugged asked rest
  have hafter : fresh.after (again :: rest) = _ :=
    after_forgets on rfl own.symm chosen.symm hchosen plugged asked rest
  refine ⟨hanswers.symm, ?_, fun plays => ?_⟩
  · rw [hafter]
    split
    · rfl
    · exact sameButLine_setLine _ _
  · rw [hafter, if_pos plays]

end

/-- A request fails exactly if it asks for a frame, the console is to be switched on, and what was
    chosen is refused. The console is then what it was before, and what a history without the
    failures leads to. The same request is answered as soon as a cartridge is chosen that can be
    loaded, or the chosen one can be, and from then on everything is as on a new console. -/
theorem failures_leave_no_trace (registry : Registry) (turns : List Turn) (turn : Turn) :
    let new : Console := { registry }
    let console := new.after turns
    (∀ error, (console.take turn).1 = .error error ↔
      ((∃ buttons, turn.request = .frame buttons ∨ turn.request = .skip buttons) ∧
        console.phase = .powerOn ∧ Refused turn.files registry console.source error)) ∧
    (new.after (new.fulfilled turns) = console ∧
      new.answers (new.fulfilled turns) = (new.answers turns).filter (·.isOk)) ∧
    ∀ error, (console.take turn).1 = .error error →
      (console.take turn).2 = console ∧
      ∀ source files cartridge, source.load files registry = .ok cartridge →
        ∀ (early : Files) (rest : List Turn),
          let insert : Turn := ⟨early, .insert source⟩
          let again : Turn := { turn with files }
          let failed := (console.take turn).2
          ((failed.take insert).1 = .ok {} ∧
            (∃ response, ((failed.take insert).2.take again).1 = .ok response) ∧
            Alike failed new (insert :: again :: rest)) ∧
          (console.source = some source →
            (∃ response, (failed.take again).1 = .ok response) ∧
              Alike failed (new.take insert).2 (again :: rest)) := by
  intro new console
  have own : console.registry = registry := registry_after registry turns
  have plugged : PluggedIn console := pluggedIn_after registry turns
  have hasked : turn.frame?.isSome = true ↔
      ∃ buttons, turn.request = .frame buttons ∨ turn.request = .skip buttons := by
    unfold Turn.frame?
    cases turn.request <;> simp
  refine ⟨fun error => ?causes, ⟨after_fulfilled new turns, answers_fulfilled new turns⟩,
    fun error failed => ?retry⟩
  case causes =>
    rw [take_eq_error_iff, own, hasked]
  case retry =>
    obtain ⟨asked, on, -⟩ := (take_eq_error_iff console turn error).mp failed
    rw [take_error failed]
    refine ⟨rfl, fun source files cartridge load early rest => ⟨?_, fun chosen => ?_⟩⟩
    · have halted : console.phase ≠ .halted := by
        rw [on]
        decide
      let chosen : Console := { console with source := some source, phase := .powerOn }
      have hinsert : console.take ⟨early, .insert source⟩ = (.ok {}, chosen) :=
        take_insert halted early source
      have hnew : (new.take ⟨early, .insert source⟩).1 = .ok {} := by
        rw [take_insert (by simp [new])]
      have plugged' := pluggedIn_take plugged ⟨early, .insert source⟩
      rw [hinsert] at plugged' ⊢
      have own' : chosen.registry = registry := own
      obtain ⟨answered, alike⟩ := alike_new load own' asked rfl rfl plugged' early rest
      refine ⟨rfl, answered, Alike.cons ?_ ?_ plugged rfl⟩
      · rw [hinsert]
        exact alike
      · rw [hinsert, hnew]
    · exact alike_new load own asked on chosen plugged early rest

/-- A file that is too short, and the same request with an image that can be read. -/
theorem failures_leave_no_trace_of_emptyRom :
    let files : Files := fun _ => .ok #[]
    let insert (bytes : Bytes) : Turn := ⟨files, .insert (.image bytes)⟩
    let frame : Turn := ⟨files, .frame (0, 0)⟩
    let console := ({} : Console).after [insert #[]]
    (console.take frame).1 = .error (.tooShort 0) ∧ (console.take frame).2 = console ∧
      (∃ response, (((console.take frame).2.take (insert emptyRom)).2.take frame).1 =
        .ok response) ∧
      Alike (console.take frame).2 {} (insert emptyRom :: frame :: [frame]) := by
  intro files insert frame console
  obtain ⟨causes, -, retry⟩ := failures_leave_no_trace {} [insert #[]] frame
  have failed : (console.take frame).1 = .error (.tooShort 0) :=
    (causes _).mpr ⟨⟨(0, 0), .inl rfl⟩, rfl, .malformed rfl rfl⟩
  have hload : ∃ cartridge, (Source.image emptyRom).load files {} = .ok cartridge := ⟨_, rfl⟩
  obtain ⟨cartridge, load⟩ := hload
  obtain ⟨same, again⟩ := retry _ failed
  obtain ⟨-, answered, alike⟩ := (again _ files cartridge load files [frame]).1
  exact ⟨failed, same, answered, alike⟩

end Console
end Nes
