/-
  A built-in board that starts over, at power-on and by the reset button.

  Starting over installs banks and nametables for the registers that it leaves behind. The button
  starts from the registers of a board as it was built, which power-on replaces by others: for an
  MMC1 the mirroring bits of the control register, and for an MMC3 the bank registers. So the two
  agree on the PRG banks and the CHR banks but for an MMC3 (`init_map_iff`, `init_patterns_iff`),
  and on the nametables but for an MMC1 (`init_arrangement_iff`).
-/
import Nes.Proofs.Board.Installed

namespace Nes

open MemoryMap

/-! ## The nametables -/

namespace VideoMemory

/-- The chosen arrangement of the nametables, and the physical table behind each of them. -/
def arrangement (m : VideoMemory) : Mirroring × Vector (Fin 4) 4 := (m.mirroring, m.layout)

theorem arrangement_write (m : VideoMemory) (addr : Nat) (value : UInt8) :
    (m.write addr value).arrangement = m.arrangement := by
  unfold write
  split
  · rfl
  · rfl
  · rfl

theorem arrangement_writeRun (m : VideoMemory) (addr : Nat) (data : Bytes) (offset count : Nat) :
    (m.writeRun addr data offset count).arrangement = m.arrangement := by
  unfold writeRun
  split
  · rfl
  · rfl
  · exact arrangement_write m addr _

theorem arrangement_writeRuns (m : VideoMemory) (addr : Nat) (data : Bytes) (offset : Nat) :
    (m.writeRuns addr data offset).arrangement = m.arrangement := by
  induction m, addr, offset using writeRuns.induct data with
  | case1 m addr offset hmore count hpos ih =>
    unfold writeRuns
    rw [dif_pos hmore]
    exact ih.trans (arrangement_writeRun m addr data offset _)
  | case2 m addr offset hend =>
    unfold writeRuns
    rw [dif_neg hend]

end VideoMemory

namespace Slot

theorem loadChr_arrangement (image : Image) (addr : UInt16) (size bank : Nat) (slot : Slot) :
    (slot.loadChr image addr size bank).ppu.memory.arrangement = slot.ppu.memory.arrangement := by
  unfold loadChr
  dsimp only
  split
  · rfl
  · exact VideoMemory.arrangement_writeRuns _ _ _ _

theorem setMirroring_arrangement (mirroring : Mirroring) (slot : Slot) :
    (slot.setMirroring mirroring).ppu.memory.arrangement = (mirroring, mirroring.layout) := rfl

end Slot

theorem Mmc1.applyChr_arrangement (board : Mmc1) (image : Image) (slot : Slot) :
    (board.applyChr image slot).ppu.memory.arrangement = slot.ppu.memory.arrangement := by
  unfold applyChr
  split
  · rw [Slot.loadChr_arrangement, Slot.loadChr_arrangement]
  · rw [Slot.loadChr_arrangement]

theorem Mmc1.applyAll_arrangement (board : Mmc1) (image : Image) (slot : Slot) :
    (board.applyAll image slot).ppu.memory.arrangement =
      (board.mirroring, board.mirroring.layout) := by
  unfold applyAll
  rw [applyChr_arrangement, applyPrg_ppu, Slot.setMirroring_arrangement]

theorem Mmc3.applyPrg_ppu (board : Mmc3) (image : Image) (slot : Slot) :
    (board.applyPrg image slot).ppu = slot.ppu := by
  unfold applyPrg
  dsimp only
  simp only [Slot.mapPrg_ppu]

theorem Mmc3.applyBanks_arrangement (board : Mmc3) (image : Image) (slot : Slot) :
    (board.applyBanks image slot).ppu.memory.arrangement = slot.ppu.memory.arrangement := by
  unfold applyBanks applyChr
  dsimp only
  simp only [Slot.loadChr_arrangement]
  rw [applyPrg_ppu]

/-! ## The IRQ line -/

namespace Slot

@[simp] theorem mapPrg_irq (image : Image) (start : UInt16) (size bank : Nat) (slot : Slot) :
    (slot.mapPrg image start size bank).irq = slot.irq := by
  unfold mapPrg
  dsimp only
  split
  · rfl
  · rfl

@[simp] theorem loadChr_irq (image : Image) (addr : UInt16) (size bank : Nat) (slot : Slot) :
    (slot.loadChr image addr size bank).irq = slot.irq := by
  unfold loadChr
  dsimp only
  split
  · rfl
  · rfl

@[simp] theorem setMirroring_irq (mirroring : Mirroring) (slot : Slot) :
    (slot.setMirroring mirroring).irq = slot.irq := rfl

end Slot

theorem Mmc1.applyAll_irq (board : Mmc1) (image : Image) (slot : Slot) :
    (board.applyAll image slot).irq = slot.irq := by
  unfold applyAll applyChr applyPrg
  dsimp only
  split
  all_goals split
  all_goals simp only [Slot.loadChr_irq, Slot.mapPrg_irq, Slot.setMirroring_irq]

namespace Board

theorem init_irq {board : Board} (hbuiltin : board.isBuiltin = true) (image : Image)
    (kind : ResetKind) (slot : Slot) : (board.init image kind slot).2.irq = slot.irq := by
  cases board with
  | nrom => simp [init, Nrom.init]
  | uxrom => simp [init, wrap, Uxrom.init]
  | cnrom => simp [init, wrap, Cnrom.init]
  | axrom => simp [init, wrap, Axrom.init, Axrom.apply]
  | mmc1 => exact Mmc1.applyAll_irq _ image slot
  | mmc3 => simp [init, wrap, Mmc3.init, Mmc3.applyBanks, Mmc3.applyChr, Mmc3.applyPrg]
  | scripted => cases hbuiltin

/-! ## The nametables of a board -/

/-- The arrangement of the nametables that a board starts with. -/
def mirroring (board : Board) (image : Image) : Mirroring :=
  match board with
  | mmc1 state => state.mirroring
  | axrom state => if bit state.select 4 then .upper else .lower
  | nrom | uxrom _ | cnrom _ | mmc3 _ | scripted _ => image.header.mirroring

theorem init_arrangement {board : Board} (hbuiltin : board.isBuiltin = true) (image : Image)
    (kind : ResetKind) (slot : Slot) :
    (board.init image kind slot).2.ppu.memory.arrangement =
      (((board.init image kind slot).1.mirroring image),
        ((board.init image kind slot).1.mirroring image).layout) := by
  cases board with
  | nrom | uxrom | cnrom | axrom => rfl
  | mmc1 => exact Mmc1.applyAll_arrangement _ image slot
  | mmc3 =>
    refine (Mmc3.applyBanks_arrangement _ image _).trans ?_
    exact Slot.setMirroring_arrangement image.header.mirroring slot
  | scripted => cases hbuiltin

end Board

/-! ## Comparing what is shown -/

theorem Board.Installed.map_eq_iff {board board' : Board} {image : Image} {slot slot' : Slot}
    (h : board.Installed image slot) (h' : board'.Installed image slot') :
    slot.map = slot'.map ↔
      (board.prgLayout image).windows (image.prgBankCount (board.prgLayout image).unit) =
        (board'.prgLayout image).windows (image.prgBankCount (board'.prgLayout image).unit) := by
  have hmap : slot.map = slot'.map ↔ slot.map.windows = slot'.map.windows := by
    constructor
    · intro heq
      rw [heq]
    · intro heq
      exact congrArg MemoryMap.mk heq
  rw [hmap, h.windows, h'.windows, List.append_cancel_left_eq]

theorem Shows.eq_iff {image : Image} {layout layout' : BankLayout}
    {patterns patterns' : Vector UInt8 0x2000} (h : Shows image layout patterns)
    (h' : Shows image layout' patterns') :
    patterns = patterns' ↔ ∀ i, i < 0x2000 →
      image.chr[image.chrOffset layout i]? = image.chr[image.chrOffset layout' i]? := by
  constructor
  · intro heq i hi
    rw [← h i hi, ← h' i hi, heq]
  · intro hall
    refine Vector.ext fun i hi => ?_
    have hcell := (h i hi).trans ((hall i hi).trans (h' i hi).symm)
    rw [Vector.getElem?_eq_getElem hi, Vector.getElem?_eq_getElem hi] at hcell
    exact Option.some.inj hcell

/-! ## MMC1 -/

namespace Mmc1

variable (image : Image) (slot slot' : Slot)

theorem prgLayout_init :
    (Board.mmc1 (init {} image .soft slot).1).prgLayout image =
      (Board.mmc1 (init {} image .power slot').1).prgLayout image := by
  unfold init
  dsimp only
  split
  · rfl
  · rfl

theorem chrLayout_init :
    (Board.mmc1 (init {} image .soft slot).1).chrLayout =
      (Board.mmc1 (init {} image .power slot').1).chrLayout := by
  unfold init
  dsimp only
  split
  · rfl
  · rfl

theorem mirroring_soft : (init {} image .soft slot).1.mirroring = .lower := by
  show (cancel {}).mirroring = .lower
  decide

/-- At power-on the mirroring is that of the header, as far as an MMC1 can do it. -/
theorem mirroring_power :
    (init {} image .power slot).1.mirroring =
      if image.header.mirroring = .vertical then .vertical else .horizontal := by
  unfold init
  dsimp only
  by_cases hvertical : image.header.mirroring = .vertical
  · rw [if_pos hvertical, if_pos hvertical]
    decide
  · rw [if_neg hvertical, if_neg hvertical]
    decide

end Mmc1

/-! ## MMC3 -/

namespace Mmc3

/-- A bank register that is written by nobody selects bank 0, which leaves in the lower half the
    first 2 KiB twice, and in the upper one the first 1 KiB four times. -/
theorem chrWindow_built {w : Nat} (hw : w < 8) :
    ({} : Mmc3).chrWindow w = if w < 4 then w % 2 else 0 := by
  have hall : ∀ w : Fin 8, ({} : Mmc3).chrWindow w = if w.val < 4 then w.val % 2 else 0 := by
    decide
  exact hall ⟨w, hw⟩

theorem chrWindow_initial {w : Nat} (hw : w < 8) :
    ({ banks := initialBanks } : Mmc3).chrWindow w = w := by
  have hall : ∀ w : Fin 8, ({ banks := initialBanks } : Mmc3).chrWindow w = w := by decide
  exact hall ⟨w, hw⟩

theorem prgWindow_built (count : Nat) :
    ({} : Mmc3).prgWindow count 0 = 0 ∧ ({} : Mmc3).prgWindow count 1 = 0 ∧
      ({} : Mmc3).prgWindow count 2 = count - 2 ∧ ({} : Mmc3).prgWindow count 3 = count - 1 :=
  ⟨rfl, rfl, rfl, rfl⟩

theorem prgWindow_initial (count : Nat) :
    ({ banks := initialBanks } : Mmc3).prgWindow count 0 = 0 ∧
      ({ banks := initialBanks } : Mmc3).prgWindow count 1 = 1 ∧
      ({ banks := initialBanks } : Mmc3).prgWindow count 2 = count - 2 ∧
      ({ banks := initialBanks } : Mmc3).prgWindow count 3 = count - 1 :=
  ⟨rfl, rfl, rfl, rfl⟩

section
variable {image : Image} (sized : image.Sized)
include sized

/-- Bank register 7 makes the difference, if there is more than one bank. -/
theorem windows_built_iff :
    BankLayout.windows ⟨0x2000, ({} : Mmc3).prgWindow (image.prgBankCount 0x2000)⟩
        (image.prgBankCount 0x2000) =
      BankLayout.windows
        ⟨0x2000, ({ banks := initialBanks } : Mmc3).prgWindow (image.prgBankCount 0x2000)⟩
        (image.prgBankCount 0x2000) ↔ image.header.prgBanks = 0 := by
  obtain ⟨hbuilt₀, hbuilt₁, hbuilt₂, hbuilt₃⟩ := prgWindow_built (image.prgBankCount 0x2000)
  obtain ⟨h₀, h₁, h₂, h₃⟩ := prgWindow_initial (image.prgBankCount 0x2000)
  have hsize : image.prg.size = image.header.prgBanks * 0x4000 := sized.prg
  have hcount : image.prgBankCount 0x2000 = max (image.header.prgBanks * 0x4000 / 0x2000) 1 := by
    unfold Image.prgBankCount
    rw [hsize]
  rw [BankLayout.windows_quarters, BankLayout.windows_quarters, hbuilt₀, hbuilt₁, hbuilt₂, hbuilt₃,
    h₀, h₁, h₂, h₃, hcount]
  by_cases hbanks : image.header.prgBanks = 0
  · rw [hbanks]
    simp
  · have hone : 1 % max (image.header.prgBanks * 0x4000 / 0x2000) 1 = 1 :=
      Nat.mod_eq_of_lt (by omega)
    rw [hone, Nat.zero_mod]
    simp [hbanks]

variable (rom : image.hasChrRam = false)
include rom

theorem chrOffset_built {i : Nat} (hi : i < 0x2000) :
    image.chrOffset (Board.mmc3 {}).chrLayout i =
      if i < 0x1000 then i % 0x800 else i % 0x400 := by
  obtain ⟨hbanks, _, _, _, hcount⟩ := sized.chrBanks rom
  have hwindow : (if i / 0x400 < 4 then i / 0x400 % 2 else 0) % image.chrBankCount 0x400 =
      if i / 0x400 < 4 then i / 0x400 % 2 else 0 :=
    Nat.mod_eq_of_lt (by split <;> omega)
  unfold Image.chrOffset BankLayout.offset
  show ({} : Mmc3).chrWindow (i / 0x400) % image.chrBankCount 0x400 * 0x400 + i % 0x400 = _
  rw [chrWindow_built (by omega), hwindow]
  by_cases hlower : i < 0x1000
  · rw [if_pos hlower, if_pos (by omega)]
    omega
  · rw [if_neg hlower, if_neg (by omega)]
    omega

theorem chrOffset_initial {i : Nat} (hi : i < 0x2000) :
    image.chrOffset (Board.mmc3 { banks := initialBanks }).chrLayout i = i := by
  obtain ⟨hbanks, _, _, _, hcount⟩ := sized.chrBanks rom
  have hwindow : i / 0x400 % image.chrBankCount 0x400 = i / 0x400 :=
    Nat.mod_eq_of_lt (by omega)
  unfold Image.chrOffset BankLayout.offset
  show ({ banks := initialBanks } : Mmc3).chrWindow (i / 0x400) % image.chrBankCount 0x400 * 0x400 +
    i % 0x400 = i
  rw [chrWindow_initial (by omega), hwindow]
  omega

end

end Mmc3

/-! ## Both ways of starting over -/

namespace Board

theorem init_uxrom (image : Image) (kind : ResetKind) (slot : Slot) :
    ((uxrom {}).init image kind slot).1 = uxrom {} := by
  simp only [init, wrap, Uxrom.init, ite_self]

theorem init_cnrom (image : Image) (kind : ResetKind) (slot : Slot) :
    ((cnrom {}).init image kind slot).1 = cnrom {} := by
  simp only [init, wrap, Cnrom.init, ite_self]

theorem init_axrom (image : Image) (kind : ResetKind) (slot : Slot) :
    ((axrom {}).init image kind slot).1 = axrom {} := by
  simp only [init, wrap, Axrom.init, ite_self]

/-- All boards but two start with the registers that they were built with. -/
theorem builtin?_first {id : UInt16} {board : Board} (h : builtin? id = some board) :
    (board.mapper ≠ 1 ∧ board.mapper ≠ 4 ∧
        ∀ image kind slot, (board.init image kind slot).1 = board) ∨
      board = mmc1 {} ∨ board = mmc3 {} := by
  obtain rfl | rfl | rfl | rfl | h := builtin?_cases h
  · exact .inl ⟨by decide, by decide, fun _ _ _ => rfl⟩
  · exact .inl ⟨by decide, by decide, init_uxrom⟩
  · exact .inl ⟨by decide, by decide, init_cnrom⟩
  · exact .inl ⟨by decide, by decide, init_axrom⟩
  · exact .inr h

/-- The button arranges the nametables as power-on does, but for an MMC1. -/
theorem init_arrangement_iff {id : UInt16} {board : Board} (hboard : builtin? id = some board)
    (image : Image) (slot slot' : Slot) :
    (board.init image .soft slot).2.ppu.memory.arrangement =
        (board.init image .power slot').2.ppu.memory.arrangement ↔ board.mapper ≠ 1 := by
  have hbuiltin := isBuiltin_of_builtin? hboard
  rw [init_arrangement hbuiltin, init_arrangement hbuiltin]
  obtain ⟨hmapper, _, hfirst⟩ | rfl | rfl := builtin?_first hboard
  · rw [hfirst, hfirst]
    exact iff_of_true rfl hmapper
  · refine iff_of_false ?_ (by decide)
    intro heq
    have hmirroring : Mmc1.mirroring _ = Mmc1.mirroring _ := congrArg Prod.fst heq
    rw [Mmc1.mirroring_soft, Mmc1.mirroring_power] at hmirroring
    split at hmirroring
    · cases hmirroring
    · cases hmirroring
  · exact iff_of_true rfl (by decide)

variable {image : Image} (sized : image.Sized) {id : UInt16} {board : Board}
  (hboard : builtin? id = some board) {slot slot' : Slot}

include sized hboard

/-- The button installs the PRG banks of power-on, but for an MMC3 with PRG ROM. -/
theorem init_map_iff (h : Filled slot.map consoleWindows 0x8000)
    (h' : Filled slot'.map consoleWindows 0x8000) :
    (board.init image .soft slot).2.map = (board.init image .power slot').2.map ↔
      board.mapper ≠ 4 ∨ image.header.prgBanks = 0 := by
  have hsoft := installed_init sized (isBuiltin_of_builtin? hboard) .soft h
  have hpower := installed_init sized (isBuiltin_of_builtin? hboard) .power h'
  rw [hsoft.map_eq_iff hpower]
  obtain ⟨_, hmapper, hfirst⟩ | rfl | rfl := builtin?_first hboard
  · rw [hfirst, hfirst]
    exact iff_of_true rfl (.inl hmapper)
  · have hlayout : ((mmc1 {}).init image .soft slot).1.prgLayout image =
        ((mmc1 {}).init image .power slot').1.prgLayout image :=
      Mmc1.prgLayout_init image slot slot'
    rw [hlayout]
    exact iff_of_true rfl (.inl (by decide))
  · have hmapper : ¬ (mmc3 {}).mapper ≠ 4 := by decide
    rw [or_iff_right hmapper]
    exact Mmc3.windows_built_iff sized

/-- The button installs the CHR banks of power-on, but for an MMC3 whose CHR ROM begins
    otherwise than with one bank of 2 KiB twice and one of 1 KiB four times. -/
theorem init_patterns_iff (h : Filled slot.map consoleWindows 0x8000)
    (h' : Filled slot'.map consoleWindows 0x8000) (rom : image.hasChrRam = false) :
    (board.init image .soft slot).2.ppu.memory.patterns =
        (board.init image .power slot').2.ppu.memory.patterns ↔
      board.mapper ≠ 4 ∨ ∀ i, i < 0x2000 →
        image.chr[if i < 0x1000 then i % 0x800 else i % 0x400]? = image.chr[i]? := by
  have hsoft := installed_init sized (isBuiltin_of_builtin? hboard) .soft h
  have hpower := installed_init sized (isBuiltin_of_builtin? hboard) .power h'
  rw [(hsoft.patterns rom).eq_iff (hpower.patterns rom)]
  obtain ⟨_, hmapper, hfirst⟩ | rfl | rfl := builtin?_first hboard
  · rw [hfirst, hfirst]
    exact iff_of_true (fun _ _ => rfl) (.inl hmapper)
  · have hlayout : ((mmc1 {}).init image .soft slot).1.chrLayout =
        ((mmc1 {}).init image .power slot').1.chrLayout :=
      Mmc1.chrLayout_init image slot slot'
    rw [hlayout]
    exact iff_of_true (fun _ _ => rfl) (.inl (by decide))
  · have hmapper : ¬ (mmc3 {}).mapper ≠ 4 := by decide
    have hbuilt (i : Nat) (hi : i < 0x2000) :
        image.chrOffset ((mmc3 {}).init image .soft slot).1.chrLayout i =
          if i < 0x1000 then i % 0x800 else i % 0x400 := Mmc3.chrOffset_built sized rom hi
    have hinitial (i : Nat) (hi : i < 0x2000) :
        image.chrOffset ((mmc3 {}).init image .power slot').1.chrLayout i = i :=
      Mmc3.chrOffset_initial sized rom hi
    rw [or_iff_right hmapper]
    refine forall₂_congr fun i hi => ?_
    rw [hbuilt i hi, hinitial i hi]

end Board
end Nes
