/-
  The trainer of a cartridge, up to the first frame that is played.

  A trainer is put in save RAM when the cartridge is built, and the CPU sees it at $7000. Switching
  on leaves save RAM alone, so without a battery the first frame finds it there. With a battery
  the first frame only asks for the stored image, and the answer takes the place of all that is in
  save RAM. Storage that has nothing under the key answers with zeros, and there is no trainer left
  to be found, unless it was nothing but zeros itself: `trainer_found_iff`.
-/
import Nes.Host.SaveDirectory
import Nes.Proofs.Console.FreshStart
import Nes.Proofs.Console.Memories
import Nes.Proofs.Image.Sections

namespace Nes

/-! ## Save RAM -/

/-- A read from memory that was zeros until bytes were copied into it. -/
theorem Ram.read_load_blank {size : Nat} (start : Nat) (bytes : Bytes) {offset : Nat}
    (h : offset < size) :
    ((Ram.blank size).load start bytes).read offset =
      if start ≤ offset ∧ offset < start + bytes.size then bytes.getD (offset - start) 0
      else 0 := by
  have hcopy := getElem?_copyInto (Ram.blank size).cells start bytes 0 bytes.size h (by omega)
  have hblank : (Ram.blank size).cells[offset]? = some 0 := by
    unfold blank
    rw [Vector.getElem?_replicate, if_pos h]
  unfold read load
  dsimp only
  rw [Nat.mod_eq_of_lt h, Array.getD_eq_getD_getElem?, Vector.getElem?_toArray, hcopy, hblank,
    Nat.zero_add]
  split
  · exact Array.getD_eq_getD_getElem?.symm
  · rfl

namespace SaveRam

/-- The bytes of a trainer where the CPU sees them at $7000, and zeros around them. -/
def HoldsTrainer (save : SaveRam) (trainer : Bytes) : Prop :=
  ∀ offset < saveSize, save.read offset =
    if 0x1000 ≤ offset ∧ offset < 0x1200 then trainer.getD (offset - 0x1000) 0 else 0

theorem holdsTrainer_loadAt {trainer : Bytes} (h : trainer.size = 512) :
    (blank.loadAt Cartridge.trainerOffset trainer).HoldsTrainer trainer := by
  intro offset hoffset
  have hread := Ram.read_load_blank Cartridge.trainerOffset trainer hoffset
  rw [h] at hread
  exact hread

/-- An image of zeros, of whatever size, leaves zeros. -/
theorem read_load_zeros (save : SaveRam) (size : Nat) {offset : Nat} (h : offset < saveSize) :
    (save.load (Bytes.zeros size)).read offset = 0 := by
  have hread := Ram.read_load_blank 0 (Bytes.zeros size) h
  refine hread.trans ?_
  split
  · next inside =>
    unfold Bytes.zeros at inside ⊢
    rw [Array.size_replicate] at inside
    rw [Array.getD_eq_getD_getElem?, Array.getElem?_replicate, if_pos (by omega)]
    rfl
  · rfl

/-- Zeros hold the trainer of zeros, and no other. -/
theorem holdsTrainer_iff_of_zeros {save : SaveRam}
    (zeros : ∀ offset < saveSize, save.read offset = 0) {trainer : Bytes}
    (h : trainer.size = 512) : save.HoldsTrainer trainer ↔ ∀ byte ∈ trainer, byte = 0 := by
  constructor
  · intro holds byte hbyte
    obtain ⟨i, hi, rfl⟩ := Array.mem_iff_getElem.mp hbyte
    have hoffset : 0x1000 + i < saveSize := by
      show 0x1000 + i < 0x2000
      omega
    have hread := holds (0x1000 + i) hoffset
    rw [zeros _ hoffset, if_pos ⟨by omega, by omega⟩, Nat.add_sub_cancel_left,
      Array.getD_eq_getD_getElem?, Array.getElem?_eq_getElem hi] at hread
    exact hread.symm
  · intro hall offset hoffset
    rw [zeros offset hoffset]
    split
    · next inside =>
      have hi : offset - 0x1000 < trainer.size := by omega
      rw [Array.getD_eq_getD_getElem?, Array.getElem?_eq_getElem hi]
      exact (hall _ (Array.getElem_mem hi)).symm
    · rfl

end SaveRam

/-! ## Nothing is kept yet -/

theorem Bytes.resize_empty (size : Nat) : Bytes.resize #[] size 0 = Bytes.zeros size := by
  unfold resize zeros
  simp

theorem MemoryStorage.load_missing {storage : MemoryStorage} {key : String}
    (missing : storage.get? key = none) (size : Nat) :
    Storage.load storage key size = Bytes.zeros size := by
  show Bytes.resize ((storage.get? key).getD #[]) size 0 = _
  rw [missing]
  exact Bytes.resize_empty size

theorem SaveDirectory.load_missing {directory : SaveDirectory} {key : String}
    (missing : directory.get? key = none) (size : Nat) :
    Storage.load directory key size = Bytes.zeros size := by
  show Bytes.resize ((directory.get? key).getD #[]) size 0 = _
  rw [missing]
  exact Bytes.resize_empty size

/-- Where there are no files, no names lead to one. -/
theorem FileTree.toOption_read_empty (names : List String) :
    (({} : FileTree).read names).toOption = none := by
  unfold read
  cases ({} : FileTree).locate names with
  | error fault => rfl
  | ok path => cases path <;> rfl

/-! ## The cartridge -/

theorem Source.load_ok {source : Source} {files : Files} {registry : Registry}
    {cartridge : Cartridge} (load : source.load files registry = .ok cartridge) :
    ∃ bytes id, Cartridge.load registry bytes id = .ok cartridge := by
  unfold Source.load at load
  split at load
  · split at load
    · exact ⟨_, _, load⟩
    · cases load
  · exact ⟨_, _, load⟩
  · exact ⟨_, _, load⟩

theorem Image.trainer_of_parse {bytes : Bytes} {image : Image} (h : parse bytes = .ok image)
    (flag : image.header.trainer = true) :
    ∃ trainer, image.trainer = some trainer ∧ trainer.size = 512 := by
  obtain ⟨header, _, h⟩ := ok_of_bind h
  obtain ⟨trainer, htrainer, h⟩ := ok_of_bind h
  obtain ⟨prg, _, h⟩ := ok_of_bind h
  obtain ⟨chr, _, h⟩ := ok_of_bind h
  cases h
  have hheader : header.trainer = true := flag
  refine ⟨trainer, if_pos hheader, ?_⟩
  rw [size_cut htrainer, if_pos hheader]
  rfl

/-- A cartridge whose header declares a trainer is built with it. -/
theorem Source.load_trainer {source : Source} {files : Files} {registry : Registry}
    {cartridge : Cartridge} (load : source.load files registry = .ok cartridge)
    (flag : cartridge.image.header.trainer = true) :
    ∃ trainer, cartridge.image.trainer = some trainer ∧ trainer.size = 512 ∧
      cartridge.save.HoldsTrainer trainer := by
  obtain ⟨bytes, id, load⟩ := load_ok load
  unfold Cartridge.load at load
  obtain ⟨image, hparse, load⟩ := ok_of_bind load
  obtain ⟨board, _, load⟩ := ok_of_bind load
  cases load
  obtain ⟨trainer, htrainer, hsize⟩ := Image.trainer_of_parse hparse flag
  refine ⟨trainer, htrainer, hsize, ?_⟩
  unfold Cartridge.ofImage
  dsimp only
  rw [htrainer]
  exact SaveRam.holdsTrainer_loadAt hsize

namespace Console

variable {console : Console}

/-! ## Waiting for the stored image -/

theorem take_waits (on : console.phase = .awaitStorage) {turn : Turn}
    (asked : turn.frame?.isSome = true) : console.take turn = (.ok {}, console) := by
  obtain ⟨frame, hframe⟩ := Option.isSome_iff_exists.mp asked
  exact (Reaction.waits hframe on).eq_take.symm

/-- A frame that is not played, and then others. -/
theorem playsFrame_cons_still {turn : Turn} (still : console.begun? turn = none)
    (turns : List Turn) :
    console.playsFrame (turn :: turns) = (console.take turn).2.playsFrame turns := by
  have hemulated : console.emulated? turn = none := by
    unfold emulated?
    rw [still]
    split
    · next h => cases h
    · rfl
  unfold playsFrame
  rw [steps, List.any_cons, hemulated]
  rfl

theorem begun_none_of_ready {turn : Turn} (h : console.ready? turn.files = none) :
    console.begun? turn = none := by
  unfold begun?
  rw [h]
  split
  · next h => cases h
  · rfl

theorem begun_none_of_frame {turn : Turn} (h : turn.frame? = none) :
    console.begun? turn = none := by
  unfold begun?
  rw [h]

/-- Frames that are asked for while the console waits are not played, and change nothing. -/
theorem waits_until (on : console.phase = .awaitStorage) {asks : List Turn}
    (asked : ∀ ask ∈ asks, ask.frame?.isSome = true) (later : List Turn) :
    console.playsFrame (asks ++ later) = console.playsFrame later ∧
      console.after (asks ++ later) = console.after later := by
  induction asks with
  | nil => exact ⟨rfl, rfl⟩
  | cons ask asks ih =>
    obtain ⟨hplays, hafter⟩ := ih fun ask h => asked ask (List.mem_cons_of_mem _ h)
    have htake := take_waits on (asked ask List.mem_cons_self)
    have hready : console.ready? ask.files = none := by
      unfold ready?
      rw [on]
    rw [List.cons_append, playsFrame_cons_still (begun_none_of_ready hready), after_cons, htake]
    exact ⟨hplays, hafter⟩

/-! ## The way to the first frame -/

/-- A cartridge is chosen. If it has a battery, frames are asked for, and then its stored image
    comes. -/
def arrival (cartridge : Cartridge) (files : Files) (source : Source) (asks : List Turn)
    (stored : Bytes) : List Turn :=
  ⟨files, .insert source⟩ ::
    if cartridge.battery then asks ++ [⟨files, .storage stored⟩] else []

/-- The console when a cartridge has been chosen. -/
def choose (console : Console) (source : Source) : Console :=
  { console with source := some source, phase := .powerOn }

variable {source : Source} {files : Files} {cartridge : Cartridge}

/-- Without a battery the first frame is played at once. -/
theorem begun_arrival (on : console.phase ≠ .halted)
    (load : source.load files console.registry = .ok cartridge)
    (battery : cartridge.battery = false) (asks : List Turn) (stored : Bytes) {turn : Turn}
    (asked : turn.frame?.isSome = true) (same : turn.files = files) :
    console.playsFrame (arrival cartridge files source asks stored) = false ∧
      (console.after (arrival cartridge files source asks stored)).begun? turn =
        some ((console.choose source).powerOn cartridge).2 := by
  obtain ⟨frame, hframe⟩ := Option.isSome_iff_exists.mp asked
  have hload : (console.choose source).chosen files = .ok cartridge := load
  have hready : (console.choose source).ready? turn.files =
      some ((console.choose source).powerOn cartridge) := by
    have hphase : (console.choose source).phase = .powerOn := rfl
    unfold ready?
    rw [hphase, same, hload]
    simp [battery]
  have hinsert := take_insert on files source
  unfold arrival
  rw [battery, if_neg Bool.false_ne_true, after_cons, after_nil, hinsert]
  refine ⟨playsFrame_cons_still (begun_none_of_frame rfl) [], ?_⟩
  refine begun_eq_some.mpr ⟨frame.1, frame.2, _, hframe, hready, ?_⟩
  rw [skipped_powerOn]
  simp [skipLimit]

/-- The console that runs with a stored image. -/
def withImage (console : Console) (cartridge : Cartridge) (stored : Bytes) : Console :=
  { console with
    schedule := .fresh cartridge.save.writes
    cartridge := some { cartridge with save := cartridge.save.load stored }
    phase := .running }

/-- What was asked for in the meantime has no effect, and the next frame begins with the stored
    image. -/
theorem begun_after_image (on : console.phase = .awaitStorage) (skipped : console.skipped = 0)
    (plugged : console.cartridge = some cartridge) {asks : List Turn}
    (asked : ∀ ask ∈ asks, ask.frame?.isSome = true) (files : Files) (stored : Bytes)
    {turn : Turn} (frame : turn.frame?.isSome = true) :
    console.playsFrame (asks ++ [⟨files, .storage stored⟩]) = false ∧
      (console.after (asks ++ [⟨files, .storage stored⟩])).begun? turn =
        some (console.withImage cartridge stored) := by
  obtain ⟨⟨buttons, drawn⟩, hframe⟩ := Option.isSome_iff_exists.mp frame
  obtain ⟨hplays, hafter⟩ := waits_until on asked [⟨files, .storage stored⟩]
  have hskipped : (console.withImage cartridge stored).skipped = 0 := skipped
  rw [hplays, hafter, playsFrame_cons_still (begun_none_of_frame rfl), after_cons, after_nil,
    take_accepts on plugged]
  refine ⟨rfl, begun_eq_some.mpr ⟨buttons, drawn, #[], hframe, rfl, ?_⟩⟩
  rw [hskipped]
  simp [skipLimit]

/-- With a battery the first frame is played when the stored image has come. -/
theorem begun_arrival_battery (on : console.phase ≠ .halted)
    (load : source.load files console.registry = .ok cartridge)
    (battery : cartridge.battery = true) {asks : List Turn} (asking : asks ≠ [])
    (asked : ∀ ask ∈ asks, ask.frame?.isSome = true ∧ ask.files = files) (stored : Bytes)
    {turn : Turn} (frame : turn.frame?.isSome = true) {switched : Cartridge}
    (plugged : ((console.choose source).powerOn cartridge).2.cartridge = some switched) :
    console.playsFrame (arrival cartridge files source asks stored) = false ∧
      (console.after (arrival cartridge files source asks stored)).begun? turn =
        some (((console.choose source).powerOn cartridge).2.withImage switched stored) := by
  obtain ⟨ask, rest, rfl⟩ := List.exists_cons_of_ne_nil asking
  obtain ⟨hask, hsame⟩ := asked ask List.mem_cons_self
  obtain ⟨buttons, hbuttons⟩ := Option.isSome_iff_exists.mp hask
  have hchosen : (console.choose source).phase = .powerOn := rfl
  have hload : (console.choose source).chosen ask.files = .ok cartridge := by
    rw [hsame]
    exact load
  have hready : (console.choose source).ready? ask.files = none := by
    unfold ready?
    rw [hchosen, hload]
    simp [battery]
  have hinsert : console.take ⟨files, .insert source⟩ = (.ok {}, console.choose source) :=
    take_insert on files source
  have hswitch := take_loads hbuttons hchosen hload battery
  have hphase := (powerOn_plugged (console.choose source) cartridge).2
  rw [battery, if_pos rfl] at hphase
  have hwait := begun_after_image hphase (skipped_powerOn _ cartridge) plugged
    (fun ask h => (asked ask (List.mem_cons_of_mem _ h)).1) files stored frame
  unfold arrival
  rw [battery, if_pos rfl, playsFrame_cons_still (begun_none_of_frame rfl), after_cons, hinsert,
    List.cons_append, playsFrame_cons_still (begun_none_of_ready hready), after_cons, hswitch]
  exact hwait

end Console

/-! ## What the CPU finds -/

namespace System

/-- The CPU reads the bytes of a trainer from $7000 on, and zeros from the rest of save RAM. -/
def FindsTrainer (system : System) (trainer : Bytes) : Prop :=
  ∀ addr : UInt16, saveWindow addr = true → (system.read addr).1 =
    if 0x7000 ≤ addr.toNat ∧ addr.toNat < 0x7200 then trainer.getD (addr.toNat - 0x7000) 0 else 0

/-- A built-in board leaves save RAM where it is. -/
theorem findsTrainer_iff {system : System} (h : Wired system)
    (hbuiltin : system.cartridge.pristine.isBuiltin = true) (trainer : Bytes) :
    system.FindsTrainer trainer ↔ system.cartridge.save.HoldsTrainer trainer := by
  -- offset and address say the same
  have hshown {addr : UInt16} {offset : Nat} (haddr : addr.toNat = 0x6000 + offset) :
      (if 0x7000 ≤ addr.toNat ∧ addr.toNat < 0x7200 then trainer.getD (addr.toNat - 0x7000) 0
        else 0) =
      if 0x1000 ≤ offset ∧ offset < 0x1200 then trainer.getD (offset - 0x1000) 0 else 0 := by
    have hbyte : addr.toNat - 0x7000 = offset - 0x1000 := by omega
    rw [hbyte]
    exact if_congr (by omega) rfl rfl
  have hread {addr : UInt16} {offset : Nat} (haddr : addr.toNat = 0x6000 + offset)
      (inside : offset < 0x2000) :
      (system.read addr).1 = system.cartridge.save.read offset := by
    have hwindow : saveWindow addr = true := saveWindow_iff.mpr (by omega)
    have hsave := (read_save (h.banked hbuiltin) hwindow).2
    rw [haddr, Nat.add_sub_cancel_left] at hsave
    exact hsave
  constructor
  · intro finds offset inside
    have hlt : offset < 0x2000 := inside
    have haddr : (UInt16.ofNat (0x6000 + offset)).toNat = 0x6000 + offset := by
      rw [UInt16.toNat_ofNat']
      omega
    rw [← hread haddr hlt, ← hshown haddr]
    exact finds _ (saveWindow_iff.mpr (by omega))
  · intro holds addr hwindow
    have hbounds := saveWindow_iff.mp hwindow
    have haddr : addr.toNat = 0x6000 + (addr.toNat - 0x6000) := by omega
    rw [hread haddr (by omega), hshown haddr]
    exact holds _ (by show _ < 0x2000; omega)

end System

namespace Console

variable {console : Console} {source : Source} {files : Files} {cartridge : Cartridge}

/-- Switching on leaves save RAM as it was built, at its place whatever is loaded into it. -/
theorem wired_powerOn {registry : Registry} (load : source.load files registry = .ok cartridge)
    (console : Console) :
    ∃ board irq,
      (console.powerOn cartridge).2.cartridge = some { cartridge with board, irq } ∧
      ∀ save, System.Wired (.plugged (console.powerOn cartridge).2.hardware
        { cartridge with board, irq, save }) := by
  have hrun := run_switchedOn console.cpu cartridge
  have hwired := hrun.keeps System.wired_step ((System.invariant_wired registry).powerOn load)
  obtain ⟨board, irq, hcartridge⟩ := switchedOn_cartridge console.cpu cartridge
  refine ⟨board, irq, ?_, fun save => ?_⟩
  · rw [powerOn_eq]
    exact congrArg some hcartridge
  · have hsave := System.wired_save hwired save
    rw [hcartridge] at hsave
    rw [powerOn_eq]
    exact hsave

/-! ## The result -/

/-- A cartridge with a trainer is chosen, frames are asked for, and if it has a battery, storage
    answers that nothing is kept for it. When the first frame begins, the trainer is where it
    should be, for the board and for the CPU, exactly if there is no battery, or if the trainer is
    nothing but zeros. -/
theorem trainer_found_iff (on : console.phase ≠ .halted)
    (load : source.load files console.registry = .ok cartridge)
    (flag : cartridge.image.header.trainer = true) {asks : List Turn} (asking : asks ≠ [])
    (asked : ∀ ask ∈ asks, ask.frame?.isSome = true ∧ ask.files = files) (size : Nat)
    {turn : Turn} (frame : turn.frame?.isSome = true) (same : turn.files = files) :
    let turns := arrival cartridge files source asks (Bytes.zeros size)
    ∃ trainer start new,
      cartridge.image.trainer = some trainer ∧ trainer.size = 512 ∧
      console.playsFrame turns = false ∧ (console.after turns).begun? turn = some start ∧
      start.cartridge = some new ∧
      (new.save.HoldsTrainer trainer ↔
        cartridge.battery = false ∨ ∀ byte ∈ trainer, byte = 0) ∧
      (cartridge.pristine.isBuiltin = true →
        ((System.plugged start.hardware new).FindsTrainer trainer ↔
          cartridge.battery = false ∨ ∀ byte ∈ trainer, byte = 0)) := by
  intro turns
  obtain ⟨trainer, htrainer, hsize, hbuilt⟩ := Source.load_trainer load flag
  obtain ⟨board, irq, hplugged, hwired⟩ := wired_powerOn load (console.choose source)
  -- for the CPU it is where it is for the board
  have hfinds (save : SaveRam) (hbuiltin : cartridge.pristine.isBuiltin = true) :=
    System.findsTrainer_iff (hwired save) hbuiltin trainer
  cases battery : cartridge.battery with
  | false =>
    obtain ⟨hplays, hbegun⟩ := begun_arrival on load battery asks (Bytes.zeros size) frame same
    have hholds : cartridge.save.HoldsTrainer trainer ↔
        false = false ∨ ∀ byte ∈ trainer, byte = 0 :=
      iff_of_true hbuilt (.inl rfl)
    exact ⟨trainer, _, _, htrainer, hsize, hplays, hbegun, hplugged, hholds,
      fun hbuiltin => (hfinds cartridge.save hbuiltin).trans hholds⟩
  | true =>
    obtain ⟨hplays, hbegun⟩ :=
      begun_arrival_battery on load battery asking asked (Bytes.zeros size) frame hplugged
    have hzeros (offset : Nat) (h : offset < saveSize) :=
      cartridge.save.read_load_zeros size h
    have hholds : (cartridge.save.load (Bytes.zeros size)).HoldsTrainer trainer ↔
        true = false ∨ ∀ byte ∈ trainer, byte = 0 :=
      (SaveRam.holdsTrainer_iff_of_zeros hzeros hsize).trans (or_iff_right (by decide)).symm
    exact ⟨trainer, _, _, htrainer, hsize, hplays, hbegun, rfl, hholds,
      fun hbuiltin => (hfinds (cartridge.save.load (Bytes.zeros size)) hbuiltin).trans hholds⟩

/-- A header for an NROM with one PRG bank and a trainer, with or without a battery. -/
def trainerHeader (battery : Bool) : Bytes :=
  #[0x4E, 0x45, 0x53, 0x1A, 1, 0, if battery then 6 else 4, 0, 0, 0, 0, 0, 0, 0, 0, 0]

/-- An image with this header, the same byte all over the trainer, and zeros. -/
def trainerRom (battery : Bool) : Bytes :=
  trainerHeader battery ++ Array.replicate 512 0xAA ++ Array.replicate 0x4000 0 ++ #[] ++ #[]

theorem load_trainerRom (battery : Bool) :
    ∃ cartridge, Cartridge.load {} (trainerRom battery) none = .ok cartridge ∧
      cartridge.image.header.trainer = true ∧ cartridge.battery = battery ∧
      cartridge.image.trainer = some (Array.replicate 512 0xAA) := by
  have hsize : (trainerHeader battery).size = 16 := rfl
  have hdeclared : Image.declared (trainerHeader battery) = ⟨512, 0x4000, 0⟩ := by
    cases battery <;> rfl
  obtain ⟨image, hparse, htrainer, _⟩ := @Image.parse_append (trainerHeader battery)
    (Array.replicate 512 0xAA) (Array.replicate 0x4000 0) #[] #[] hsize rfl
    (by rw [hdeclared]; exact Array.size_replicate)
    (by rw [hdeclared]; exact Array.size_replicate) (by rw [hdeclared]; rfl)
  have hheader : image.header = Image.declaredHeader (trainerHeader battery) := by
    rw [Image.eq_slices_of_parse hparse]
    unfold Image.slices Image.declaredHeader
    simp only [Array.append_assoc]
    rw [Image.getD_append hsize (by decide), Image.getD_append hsize (by decide),
      Image.getD_append hsize (by decide), Image.getD_append hsize (by decide)]
  have hmapper : image.header.mapper = 0 := by
    rw [hheader]
    cases battery <;> rfl
  refine ⟨.ofImage image .nrom, ?_, ?_, ?_, ?_⟩
  · have hbuild : ({} : Registry).build image.header.mapper = .ok .nrom := by
      rw [hmapper]
      rfl
    unfold Cartridge.load
    show (Image.parse (trainerRom battery)).bind _ = _
    rw [show Image.parse (trainerRom battery) = .ok image from hparse]
    show (({} : Registry).build image.header.mapper).bind _ = _
    rw [hbuild]
    rfl
  · show image.header.trainer = true
    rw [hheader]
    cases battery <;> rfl
  · show image.header.battery = battery
    rw [hheader]
    cases battery <;> rfl
  · show image.trainer = _
    rw [htrainer]
    cases battery <;> rfl

/-- Without a battery the trainer is there. -/
theorem trainer_found_iff_of_trainerRom :
    let files : Files := fun _ => .ok #[]
    let ask : Turn := ⟨files, .frame (0, 0)⟩
    ∃ cartridge trainer start new,
      Cartridge.load {} (trainerRom false) none = .ok cartridge ∧
      cartridge.image.header.trainer = true ∧ cartridge.image.trainer = some trainer ∧
      (({} : Console).after (arrival cartridge files (.image (trainerRom false)) [ask]
        #[])).begun? ask = some start ∧
      start.cartridge = some new ∧ new.save.HoldsTrainer trainer := by
  intro files ask
  obtain ⟨cartridge, load, flag, battery, _⟩ := load_trainerRom false
  obtain ⟨trainer, start, new, htrainer, _, _, hbegun, hnew, hholds, _⟩ :=
    @trainer_found_iff {} (.image (trainerRom false)) files cartridge (fun h => nomatch h) load flag
      [ask] (List.cons_ne_nil _ _) (List.forall_mem_singleton.mpr ⟨rfl, rfl⟩) 0 ask rfl rfl
  exact ⟨cartridge, trainer, start, new, load, flag, htrainer, hbegun, hnew,
    hholds.mpr (.inl battery)⟩

/-- With a battery, and storage that is still empty, in memory or in a directory, the trainer is
    gone. -/
theorem trainer_lost_of_trainerRom :
    let files : Files := fun _ => .ok #[]
    let ask : Turn := ⟨files, .frame (0, 0)⟩
    ∃ cartridge trainer,
      Cartridge.load {} (trainerRom true) none = .ok cartridge ∧
      cartridge.image.header.trainer = true ∧ cartridge.image.trainer = some trainer ∧
      trainer.getD 0 0 = 0xAA ∧
      ∀ stored ∈ [Storage.load ({} : MemoryStorage) cartridge.image.key saveSize,
          Storage.load ({ names := ["saves"] } : SaveDirectory) cartridge.image.key saveSize],
        ∃ start new,
          (({} : Console).after (arrival cartridge files (.image (trainerRom true)) [ask]
            stored)).begun? ask = some start ∧
          start.cartridge = some new ∧ new.save.read 0x1000 = 0 ∧
          ¬ new.save.HoldsTrainer trainer := by
  intro files ask
  obtain ⟨cartridge, load, flag, battery, htrainer⟩ := load_trainerRom true
  have hfirst : (Array.replicate 512 (0xAA : UInt8)).getD 0 0 = 0xAA := by
    rw [Array.getD_eq_getD_getElem?, Array.getElem?_replicate, if_pos (by decide)]
    rfl
  refine ⟨cartridge, _, load, flag, htrainer, hfirst, fun stored hstored => ?_⟩
  have hmemory := @MemoryStorage.load_missing {} cartridge.image.key rfl saveSize
  have hdirectory := @SaveDirectory.load_missing { names := ["saves"] } cartridge.image.key
    (FileTree.toOption_read_empty _) saveSize
  have hzeros : stored = Bytes.zeros saveSize := by
    rw [List.mem_cons, List.mem_singleton] at hstored
    exact hstored.elim (·.trans hmemory) (·.trans hdirectory)
  obtain ⟨⟨board, irq, hplugged⟩, _⟩ :=
    powerOn_plugged (({} : Console).choose (.image (trainerRom true))) cartridge
  obtain ⟨_, hbegun⟩ := @begun_arrival_battery {} (.image (trainerRom true)) files cartridge
    (fun h => nomatch h) load battery [ask] (List.cons_ne_nil _ _)
    (List.forall_mem_singleton.mpr ⟨rfl, rfl⟩) stored ask rfl _ hplugged
  have hzero : (cartridge.save.load stored).read 0x1000 = 0 := by
    rw [hzeros]
    exact cartridge.save.read_load_zeros saveSize (by decide)
  refine ⟨_, _, hbegun, rfl, hzero, fun holds => ?_⟩
  have hread := holds 0x1000 (by decide)
  rw [if_pos (by decide), Nat.sub_self, hfirst] at hread
  exact absurd (hzero.symm.trans hread) (by decide)

end Console
end Nes
