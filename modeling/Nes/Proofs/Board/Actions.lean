/-
  What a board can do to its slot: map a PRG bank, load a CHR bank, switch the nametables, drive
  the IRQ line, and take a note.

  `Slot.Action` is one of these five. Each hook of each board, a scripted one included, leaves
  the slot in a state that a sequence of actions leads to (`Board.run_init` to
  `Board.run_vblank`). What no action changes, no board changes: the sprites that the PPU has
  prepared, its registers, and the right to write the pattern tables.
-/
import Mathlib.Logic.Relation
import Nes.Board.Basic

namespace Nes

namespace Slot

/-- One action of a board with image `image`. -/
inductive Action (image : Image) : Slot → Slot → Prop
  | mapPrg (slot : Slot) (start : UInt16) (size bank : Nat) :
      Action image slot (slot.mapPrg image start size bank)
  | loadChr (slot : Slot) (addr : UInt16) (size bank : Nat) :
      Action image slot (slot.loadChr image addr size bank)
  | setMirroring (slot : Slot) (mirroring : Mirroring) :
      Action image slot (slot.setMirroring mirroring)
  | setIrq (slot : Slot) (level : Bool) : Action image slot (slot.setIrq level)
  | note (slot : Slot) (call : Call) : Action image slot (slot.note image call)

/-- Any number of actions, one after the other. -/
def Run (image : Image) : Slot → Slot → Prop := Relation.ReflTransGen (Action image)

namespace Run

variable {image : Image}

theorem refl (slot : Slot) : Run image slot slot := Relation.ReflTransGen.refl

theorem trans {a b c : Slot} (h₁ : Run image a b) (h₂ : Run image b c) : Run image a c :=
  Relation.ReflTransGen.trans h₁ h₂

theorem one {a b : Slot} (h : Action image a b) : Run image a b := Relation.ReflTransGen.single h

/-- A run, and one more action. -/
theorem next {a b c : Slot} (h₁ : Run image a b) (h₂ : Action image b c) : Run image a c :=
  Relation.ReflTransGen.tail h₁ h₂

/-- What every action keeps, a run keeps. -/
theorem keeps {P : Slot → Prop} (step : ∀ {a b : Slot}, Action image a b → P a → P b) {a b : Slot}
    (h : Run image a b) (ha : P a) : P b := by
  induction h with
  | refl => exact ha
  | tail _ action ih => exact step action ih

end Run

/-- An action changes nothing in the PPU but its memory. -/
theorem Action.ppu_eq {image : Image} {a b : Slot} (h : Action image a b) :
    b.ppu = { a.ppu with memory := b.ppu.memory } := by
  cases h with
  | mapPrg start size bank =>
    unfold Slot.mapPrg
    dsimp only
    split <;> rfl
  | loadChr addr size bank =>
    unfold Slot.loadChr
    dsimp only
    split <;> rfl
  | setMirroring | setIrq | note => rfl

/-- A board changes nothing in the PPU but its memory. -/
theorem Run.ppu_eq {image : Image} {a b : Slot} (h : Run image a b) :
    b.ppu = { a.ppu with memory := b.ppu.memory } :=
  h.keeps (P := fun slot => slot.ppu = { a.ppu with memory := slot.ppu.memory })
    (fun action ih => by rw [action.ppu_eq, ih]) rfl

end Slot

/-! ## The boards of a few gates -/

variable (image : Image) (slot : Slot)

theorem Nrom.run_init : Slot.Run image slot (Nrom.init image slot) :=
  (((Slot.Run.refl _).next (.mapPrg _ _ _ _)).next (.mapPrg _ _ _ _)).next (.loadChr _ _ _ _)
    |>.next (.setMirroring _ _)

theorem Uxrom.run_init (board : Uxrom) (kind : ResetKind) :
    Slot.Run image slot (board.init image kind slot).2 :=
  (((Slot.Run.refl _).next (.mapPrg _ _ _ _)).next (.mapPrg _ _ _ _)).next (.loadChr _ _ _ _)
    |>.next (.setMirroring _ _)

theorem Uxrom.run_write (data : UInt8) : Slot.Run image slot (Uxrom.write image data slot).2 := by
  unfold write
  dsimp only
  exact .one (.mapPrg slot _ _ _)

theorem Cnrom.run_init (board : Cnrom) (kind : ResetKind) :
    Slot.Run image slot (board.init image kind slot).2 :=
  (((Slot.Run.refl _).next (.mapPrg _ _ _ _)).next (.mapPrg _ _ _ _)).next (.loadChr _ _ _ _)
    |>.next (.setMirroring _ _)

theorem Cnrom.run_write (data : UInt8) : Slot.Run image slot (Cnrom.write image data slot).2 := by
  unfold write
  dsimp only
  exact .one (.loadChr slot _ _ _)

theorem Axrom.run_apply (board : Axrom) : Slot.Run image slot (board.apply image slot) :=
  ((Slot.Run.refl _).next (.mapPrg _ _ _ _)).next (.mapPrg _ _ _ _) |>.next (.setMirroring _ _)

theorem Axrom.run_write (data : UInt8) : Slot.Run image slot (Axrom.write image data slot).2 := by
  unfold write
  exact run_apply image slot ⟨data⟩

theorem Axrom.run_init (board : Axrom) (kind : ResetKind) :
    Slot.Run image slot (board.init image kind slot).2 :=
  (Slot.Run.one (.loadChr _ _ _ _)).trans (run_apply image _ _)

/-! ## MMC1 and MMC3 -/

theorem Mmc1.run_applyPrg (board : Mmc1) : Slot.Run image slot (board.applyPrg image slot) := by
  unfold applyPrg
  dsimp only
  split
  all_goals exact ((Slot.Run.refl _).next (.mapPrg _ _ _ _)).next (.mapPrg _ _ _ _)

theorem Mmc1.run_applyChr (board : Mmc1) : Slot.Run image slot (board.applyChr image slot) := by
  unfold applyChr
  split
  · exact ((Slot.Run.refl _).next (.loadChr _ _ _ _)).next (.loadChr _ _ _ _)
  · exact .one (.loadChr _ _ _ _)

theorem Mmc1.run_applyAll (board : Mmc1) : Slot.Run image slot (board.applyAll image slot) :=
  ((Slot.Run.one (.setMirroring _ _)).trans (run_applyPrg image _ board)).trans
    (run_applyChr image _ board)

theorem Mmc1.run_init (board : Mmc1) (kind : ResetKind) :
    Slot.Run image slot (board.init image kind slot).2 :=
  run_applyAll image slot _

theorem Mmc1.run_commit (board : Mmc1) (addr : UInt16) (value : UInt8) :
    Slot.Run image slot (board.commit image addr value slot).2 := by
  unfold commit
  split
  · exact run_applyAll image slot _
  · exact run_applyChr image slot _
  · exact run_applyChr image slot _
  · exact run_applyPrg image slot _

theorem Mmc1.run_write (board : Mmc1) (addr : UInt16) (data : UInt8) :
    Slot.Run image slot (board.write image addr data slot).2 := by
  unfold write
  dsimp only
  split
  · exact run_applyPrg image slot _
  · split
    · exact run_commit image slot _ addr _
    · exact .refl slot

theorem Mmc3.run_applyBanks (board : Mmc3) :
    Slot.Run image slot (board.applyBanks image slot) := by
  have hprg : Slot.Run image slot (board.applyPrg image slot) := by
    unfold applyPrg
    dsimp only
    exact (((Slot.Run.refl _).next (.mapPrg _ _ _ _)).next (.mapPrg _ _ _ _)).next (.mapPrg _ _ _ _)
      |>.next (.mapPrg _ _ _ _)
  have hchr (slot : Slot) : Slot.Run image slot (board.applyChr image slot) := by
    unfold applyChr
    dsimp only
    exact ((((Slot.Run.refl _).next (.loadChr _ _ _ _)).next (.loadChr _ _ _ _)).next
      (.loadChr _ _ _ _)).next (.loadChr _ _ _ _) |>.next (.loadChr _ _ _ _)
      |>.next (.loadChr _ _ _ _)
  exact hprg.trans (hchr _)

theorem Mmc3.run_init (board : Mmc3) (kind : ResetKind) :
    Slot.Run image slot (board.init image kind slot).2 :=
  (Slot.Run.one (.setMirroring _ _)).trans (run_applyBanks image _ _)

theorem Mmc3.run_write (board : Mmc3) (addr : UInt16) (data : UInt8) :
    Slot.Run image slot (board.write image addr data slot).2 := by
  unfold write
  split
  · exact run_applyBanks image slot _
  · exact run_applyBanks image slot _
  · split
    · exact .refl slot
    · exact .one (.setMirroring _ _)
  · exact .refl slot
  · exact .refl slot
  · exact .refl slot
  · exact .one (.setIrq _ _)
  · exact .refl slot

theorem Mmc3.run_hblank (board : Mmc3) (line : Nat) :
    Slot.Run image slot (board.hblank line slot).2 := by
  unfold hblank
  split
  · dsimp only
    split
    · exact .one (.setIrq _ _)
    · exact .refl slot
  · exact .refl slot

/-! ## Scripted boards -/

theorem BoardCommand.run_run (call : Call) (command : BoardCommand) :
    Slot.Run image slot (command.run image call slot) := by
  cases command with
  | prg | prgData => exact .one (.mapPrg _ _ _ _)
  | chr | chrData => exact .one (.loadChr _ _ _ _)
  | mirroring | headerMirroring => exact .one (.setMirroring _ _)
  | irq level => exact .one (.setIrq _ level)
  | note => exact .one (.note _ call)

theorem Script.run_run (script : Script) (call : Call) :
    Slot.Run image slot (script.run image call slot) := by
  unfold Script.run
  induction script.cues call.hook generalizing slot with
  | nil => exact .refl slot
  | cons cue cues ih =>
    simp only [List.foldl_cons]
    split
    · exact (BoardCommand.run_run image slot call cue.command).trans (ih _)
    · exact ih slot

/-! ## All boards -/

namespace Board

theorem run_init (board : Board) (kind : ResetKind) :
    Slot.Run image slot (board.init image kind slot).2 := by
  cases board with
  | nrom => exact Nrom.run_init image slot
  | mmc1 state => exact Mmc1.run_init image slot state kind
  | uxrom state => exact Uxrom.run_init image slot state kind
  | cnrom state => exact Cnrom.run_init image slot state kind
  | mmc3 state => exact Mmc3.run_init image slot state kind
  | axrom state => exact Axrom.run_init image slot state kind
  | scripted script => exact Script.run_run image slot script _

theorem run_write (board : Board) (addr : UInt16) (data : UInt8) :
    Slot.Run image slot (board.write image addr data slot).2 := by
  cases board with
  | nrom => exact .refl slot
  | mmc1 state => exact Mmc1.run_write image slot state addr data
  | uxrom state =>
    simp only [write, wrap]
    exact Uxrom.run_write image slot data
  | cnrom state =>
    simp only [write, wrap]
    exact Cnrom.run_write image slot data
  | mmc3 state => exact Mmc3.run_write image slot state addr data
  | axrom state =>
    simp only [write, wrap]
    exact Axrom.run_write image slot data
  | scripted script => exact Script.run_run image slot script _

theorem run_preLine (board : Board) (line : Nat) :
    Slot.Run image slot (board.preLine image line slot).2 := by
  cases board with
  | scripted script => exact Script.run_run image slot script _
  | nrom | mmc1 | uxrom | cnrom | mmc3 | axrom => exact .refl slot

theorem run_hblank (board : Board) (line : Nat) :
    Slot.Run image slot (board.hblank image line slot).2 := by
  cases board with
  | mmc3 state => exact Mmc3.run_hblank image slot state line
  | scripted script => exact Script.run_run image slot script _
  | nrom | mmc1 | uxrom | cnrom | axrom => exact .refl slot

theorem run_vblank (board : Board) : Slot.Run image slot (board.vblank image slot).2 := by
  cases board with
  | scripted script => exact Script.run_run image slot script _
  | nrom | mmc1 | uxrom | cnrom | mmc3 | axrom => exact .refl slot

end Board
end Nes
