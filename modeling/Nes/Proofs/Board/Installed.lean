/-
  The memory map and the pattern tables show what a board's registers select.

  The registers are read off once, when a bank is mapped or loaded; what the CPU and the PPU see
  later are the map and the copied bytes. `Board.Installed` says that the two agree. A board
  keeps it through every one of its hooks (`installed_write`, `installed_hblank`), whether the
  hook refreshes all banks, some, or none. Starting over establishes it whatever was mapped
  before (`installed_init`).
-/
import Nes.Proofs.Board.Layouts

namespace Nes

open MemoryMap

namespace Board

/-- Whether the board is one of those that need no script. -/
def isBuiltin : Board → Bool
  | scripted _ => false
  | _ => true

theorem builtin?_cases {id : UInt16} {board : Board} (h : builtin? id = some board) :
    board = nrom ∨ board = uxrom {} ∨ board = cnrom {} ∨ board = axrom {} ∨ board = mmc1 {} ∨
      board = mmc3 {} := by
  unfold builtin? at h
  split at h
  · cases h
    exact .inl rfl
  · cases h
    exact .inr (.inr (.inr (.inr (.inl rfl))))
  · cases h
    exact .inr (.inl rfl)
  · cases h
    exact .inr (.inr (.inl rfl))
  · cases h
    exact .inr (.inr (.inr (.inr (.inr rfl))))
  · cases h
    exact .inr (.inr (.inr (.inl rfl)))
  · cases h

theorem isBuiltin_of_builtin? {id : UInt16} {board : Board} (h : builtin? id = some board) :
    board.isBuiltin = true := by
  obtain rfl | rfl | rfl | rfl | rfl | rfl := builtin?_cases h
  all_goals rfl

/-- The memory map and, if there is CHR ROM, the pattern tables show what the registers
    select. -/
structure Installed (board : Board) (image : Image) (slot : Slot) : Prop where
  builtin : board.isBuiltin = true
  windows : slot.map.windows = consoleWindows ++
    (board.prgLayout image).windows (image.prgBankCount (board.prgLayout image).unit)
  patterns : image.hasChrRam = false → Shows image board.chrLayout slot.ppu.memory.patterns

theorem prgLayout_unit (board : Board) (image : Image) :
    (board.prgLayout image).unit = 0x4000 ∨ (board.prgLayout image).unit = 0x2000 := by
  cases board with
  | mmc3 => exact .inr rfl
  | nrom | uxrom | cnrom | axrom | mmc1 | scripted => exact .inl rfl

theorem prgLayout_unit_pos (board : Board) (image : Image) :
    0 < (board.prgLayout image).unit := by
  obtain h | h := board.prgLayout_unit image
  · rw [h]
    decide
  · rw [h]
    decide

namespace Installed

variable {board : Board} {image : Image} {slot : Slot}

/-- The console's own windows are in place. -/
theorem filled (h : board.Installed image slot) : Filled slot.map consoleWindows 0x8000 :=
  filled_console (BankLayout.startFrom_windows (board.prgLayout_unit_pos image) _) h.windows

/-- Registers that select no bank may change, and so may all of the slot but the map and the
    pattern tables. -/
theorem keep (h : board.Installed image slot) {board' : Board} {slot' : Slot}
    (hbuiltin : board'.isBuiltin = true)
    (hprg : board'.prgLayout image = board.prgLayout image)
    (hchr : board'.chrLayout = board.chrLayout) (hmap : slot'.map = slot.map)
    (hpatterns : image.hasChrRam = false →
      slot'.ppu.memory.patterns = slot.ppu.memory.patterns) :
    board'.Installed image slot' := by
  refine ⟨hbuiltin, ?_, fun rom => ?_⟩
  · rw [hmap, hprg, h.windows]
  · rw [hchr, hpatterns rom]
    exact h.patterns rom

end Installed
end Board

variable {image : Image} (sized : image.Sized)

/-! ## The boards of a few gates -/

include sized in
/-- Two PRG banks of 16 KiB and a CHR bank of 8 KiB. -/
theorem Slot.installed_fresh {board : Board} (hbuiltin : board.isBuiltin = true)
    (prg : Nat → Nat) (chr : Nat) (hprg : board.prgLayout image = ⟨0x4000, prg⟩)
    (hchr : board.chrLayout = ⟨0x2000, fun _ => chr⟩) (mirroring : Mirroring) {slot : Slot}
    (h : Filled slot.map consoleWindows 0x8000) :
    board.Installed image (slot
      |>.mapPrg image 0x8000 0x4000 (prg 0)
      |>.mapPrg image 0xC000 0x4000 (prg 1)
      |>.loadChr image 0x0000 0x2000 chr
      |>.setMirroring mirroring) := by
  refine ⟨hbuiltin, ?_, fun rom => ?_⟩
  · rw [hprg, setMirroring_map, loadChr_map]
    exact mapPrg_halves h image prg
  · rw [hchr, setMirroring_patterns]
    exact shows_whole sized rom chr _

theorem Uxrom.installed_write {state : Uxrom} {slot : Slot}
    (h : (Board.uxrom state).Installed image slot) (data : UInt8) :
    (Board.uxrom (write image data slot).1).Installed image (write image data slot).2 := by
  have hwindows : slot.map.windows = consoleWindows ++
      BankLayout.windows ⟨0x4000, fun w => if w = 0 then state.bank.toNat
        else image.prgBankCount 0x4000 - 1⟩ (image.prgBankCount 0x4000) := h.windows
  have hlower := Slot.mapPrg_lowerHalf
    (fun w => if w = 0 then data.toNat else image.prgBankCount 0x4000 - 1) hwindows rfl
  refine ⟨rfl, hlower, fun rom => ?_⟩
  unfold write
  rw [Slot.mapPrg_ppu]
  exact h.patterns rom

include sized in
theorem Cnrom.installed_write {state : Cnrom} {slot : Slot}
    (h : (Board.cnrom state).Installed image slot) (data : UInt8) :
    (Board.cnrom (write image data slot).1).Installed image (write image data slot).2 := by
  refine ⟨rfl, ?_, fun rom => ?_⟩
  · unfold write
    rw [Slot.loadChr_map]
    exact h.windows
  · exact Slot.shows_whole sized rom data.toNat slot

theorem Axrom.installed_apply (state : Axrom) {slot : Slot}
    (h : Filled slot.map consoleWindows 0x8000)
    (hpatterns : image.hasChrRam = false →
      Shows image ⟨0x2000, fun _ => 0⟩ slot.ppu.memory.patterns) :
    (Board.axrom state).Installed image (state.apply image slot) := by
  have hwindows := Slot.mapPrg_halves h image fun w => state.select.toNat % 8 * 2 + w
  refine ⟨rfl, hwindows, fun rom => ?_⟩
  unfold apply
  rw [Slot.setMirroring_patterns, Slot.mapPrg_ppu, Slot.mapPrg_ppu]
  exact hpatterns rom

theorem Axrom.installed_write {state : Axrom} {slot : Slot}
    (h : (Board.axrom state).Installed image slot) (data : UInt8) :
    (Board.axrom (write image data slot).1).Installed image (write image data slot).2 :=
  installed_apply ⟨data⟩ h.filled h.patterns

/-! ## MMC1 -/

namespace Mmc1

/-- In every mode two windows are mapped, each with the bank that the registers select. -/
theorem applyPrg_eq (board : Mmc1) (slot : Slot) :
    board.applyPrg image slot =
      (slot.mapPrg image 0x8000 0x4000 (board.prgWindow (image.prgBankCount 0x4000 - 1) 0)
        |>.mapPrg image 0xC000 0x4000 (board.prgWindow (image.prgBankCount 0x4000 - 1) 1)) := by
  unfold applyPrg prgWindow
  dsimp only
  have hmode : board.control.toNat / 4 % 4 < 4 := Nat.mod_lt _ (by decide)
  generalize board.control.toNat / 4 % 4 = mode at hmode
  obtain rfl | rfl | rfl | rfl : mode = 0 ∨ mode = 1 ∨ mode = 2 ∨ mode = 3 := by omega
  all_goals rfl

theorem applyPrg_ppu (board : Mmc1) (slot : Slot) :
    (board.applyPrg image slot).ppu = slot.ppu := by
  rw [applyPrg_eq, Slot.mapPrg_ppu, Slot.mapPrg_ppu]

theorem applyChr_map (board : Mmc1) (slot : Slot) :
    (board.applyChr image slot).map = slot.map := by
  unfold applyChr
  split
  · rw [Slot.loadChr_map, Slot.loadChr_map]
  · rw [Slot.loadChr_map]

theorem windows_applyPrg (board : Mmc1) {slot : Slot}
    (h : Filled slot.map consoleWindows 0x8000) :
    (board.applyPrg image slot).map.windows = consoleWindows ++
      BankLayout.windows ⟨0x4000, board.prgWindow (image.prgBankCount 0x4000 - 1)⟩
        (image.prgBankCount 0x4000) := by
  rw [← Slot.mapPrg_halves h image, applyPrg_eq]

include sized in
theorem shows_applyChr (board : Mmc1) (slot : Slot) (rom : image.hasChrRam = false) :
    Shows image (Board.mmc1 board).chrLayout (board.applyChr image slot).ppu.memory.patterns := by
  unfold Board.chrLayout applyChr
  dsimp only
  split
  · exact Slot.shows_halves sized rom _ _ slot
  · exact Slot.shows_whole sized rom _ slot

include sized in
theorem installed_applyAll (board : Mmc1) {slot : Slot}
    (h : Filled slot.map consoleWindows 0x8000) :
    (Board.mmc1 board).Installed image (board.applyAll image slot) := by
  refine ⟨rfl, ?_, fun rom => shows_applyChr sized board _ rom⟩
  unfold applyAll
  rw [applyChr_map]
  exact windows_applyPrg board h

include sized in
/-- Only the CHR banks are refreshed. -/
theorem installed_applyChr {board board' : Mmc1} {slot : Slot}
    (h : (Board.mmc1 board).Installed image slot)
    (hprg : board'.prgWindow = board.prgWindow) :
    (Board.mmc1 board').Installed image (board'.applyChr image slot) := by
  refine ⟨rfl, ?_, fun rom => shows_applyChr sized board' slot rom⟩
  rw [applyChr_map, h.windows]
  unfold Board.prgLayout
  dsimp only
  rw [hprg]

/-- Only the PRG banks are refreshed. -/
theorem installed_applyPrg {board board' : Mmc1} {slot : Slot}
    (h : (Board.mmc1 board).Installed image slot)
    (hchr : (Board.mmc1 board').chrLayout = (Board.mmc1 board).chrLayout) :
    (Board.mmc1 board').Installed image (board'.applyPrg image slot) := by
  refine ⟨rfl, windows_applyPrg board' h.filled, fun rom => ?_⟩
  rw [applyPrg_ppu, hchr]
  exact h.patterns rom

/-- Giving up the bits so far does not touch the CHR mode. -/
theorem chrLayout_cancel (board : Mmc1) :
    (Board.mmc1 board.cancel).chrLayout = (Board.mmc1 board).chrLayout := by
  have hbit : bit (board.control ||| 0x0C) 4 = bit board.control 4 := by
    have hfixed : (0x0C : UInt8).toNat.testBit 4 = false := rfl
    unfold bit
    rw [UInt8.toNat_or, Nat.testBit_or, hfixed, Bool.or_false]
  unfold Board.chrLayout cancel
  dsimp only
  rw [hbit]

include sized in
theorem installed_commit {board : Mmc1} {slot : Slot}
    (h : (Board.mmc1 board).Installed image slot) (addr : UInt16) (value : UInt8) :
    (Board.mmc1 (board.commit image addr value slot).1).Installed image
      (board.commit image addr value slot).2 := by
  unfold commit
  split
  · exact installed_applyAll sized _ h.filled
  · exact installed_applyChr sized h rfl
  · exact installed_applyChr sized h rfl
  · exact installed_applyPrg h rfl

include sized in
theorem installed_write {board : Mmc1} {slot : Slot}
    (h : (Board.mmc1 board).Installed image slot) (addr : UInt16) (data : UInt8) :
    (Board.mmc1 (board.write image addr data slot).1).Installed image
      (board.write image addr data slot).2 := by
  unfold write
  dsimp only
  split
  · exact installed_applyPrg h (chrLayout_cancel board)
  · have hempty : (Board.mmc1 { board with shift := 0, count := 0 }).Installed image slot :=
      h.keep rfl rfl rfl rfl fun _ => rfl
    split
    · exact installed_commit sized hempty addr _
    · exact h.keep rfl rfl rfl rfl fun _ => rfl

end Mmc1

/-! ## MMC3 -/

namespace Mmc3

theorem applyChr_map (board : Mmc3) (slot : Slot) :
    (board.applyChr image slot).map = slot.map := by
  unfold applyChr
  dsimp only
  simp only [Slot.loadChr_map]

theorem windows_applyPrg (board : Mmc3) {slot : Slot}
    (h : Filled slot.map consoleWindows 0x8000) :
    (board.applyPrg image slot).map.windows = consoleWindows ++
      BankLayout.windows ⟨0x2000, board.prgWindow (image.prgBankCount 0x2000)⟩
        (image.prgBankCount 0x2000) := by
  rw [← Slot.mapPrg_quarters h image]
  unfold applyPrg prgWindow
  dsimp only
  cases bit board.select 6 with
  | false => rfl
  | true => rfl

include sized in
theorem installed_applyBanks (board : Mmc3) {slot : Slot}
    (h : Filled slot.map consoleWindows 0x8000) :
    (Board.mmc3 board).Installed image (board.applyBanks image slot) := by
  refine ⟨rfl, ?_, fun rom => Slot.shows_mmc3 sized rom board _⟩
  unfold applyBanks
  rw [applyChr_map]
  exact windows_applyPrg board h

include sized in
theorem installed_write {board : Mmc3} {slot : Slot}
    (h : (Board.mmc3 board).Installed image slot) (addr : UInt16) (data : UInt8) :
    (Board.mmc3 (board.write image addr data slot).1).Installed image
      (board.write image addr data slot).2 := by
  unfold write
  split
  · exact installed_applyBanks sized _ h.filled
  · exact installed_applyBanks sized _ h.filled
  · split
    · exact h
    · exact h.keep rfl rfl rfl rfl fun _ => rfl
  · exact h
  -- the four registers of the line counter select no bank
  · exact h.keep rfl rfl rfl rfl fun _ => rfl
  · exact h.keep rfl rfl rfl rfl fun _ => rfl
  · exact h.keep rfl rfl rfl rfl fun _ => rfl
  · exact h.keep rfl rfl rfl rfl fun _ => rfl

theorem installed_hblank {board : Mmc3} {slot : Slot}
    (h : (Board.mmc3 board).Installed image slot) (line : Nat) :
    (Board.mmc3 (board.hblank line slot).1).Installed image (board.hblank line slot).2 := by
  have hcount : (Board.mmc3 board.countLine).Installed image slot := by
    unfold countLine
    split
    · exact h.keep rfl rfl rfl rfl fun _ => rfl
    · exact h.keep rfl rfl rfl rfl fun _ => rfl
  unfold hblank
  split
  · dsimp only
    split
    · exact hcount.keep rfl rfl rfl rfl fun _ => rfl
    · exact hcount
  · exact h

end Mmc3

/-! ## All boards -/

namespace Board

include sized in
/-- Starting over installs the banks, whatever was mapped into PRG space before. -/
theorem installed_init {board : Board} (hbuiltin : board.isBuiltin = true) (kind : ResetKind)
    {slot : Slot} (h : Filled slot.map consoleWindows 0x8000) :
    (board.init image kind slot).1.Installed image (board.init image kind slot).2 := by
  have hfresh {board : Board} (hbuiltin : board.isBuiltin = true) (prg : Nat → Nat) (chr : Nat)
      (hprg : board.prgLayout image = ⟨0x4000, prg⟩)
      (hchr : board.chrLayout = ⟨0x2000, fun _ => chr⟩) :=
    Slot.installed_fresh sized hbuiltin prg chr hprg hchr image.header.mirroring h
  cases board with
  | nrom =>
    exact hfresh rfl (fun w => if w = 0 then 0 else image.prgBankCount 0x4000 - 1) 0 rfl rfl
  | uxrom =>
    exact hfresh rfl (fun w => if w = 0 then _ else image.prgBankCount 0x4000 - 1) 0 rfl rfl
  | cnrom =>
    exact hfresh rfl (fun w => if w = 0 then 0 else image.prgBankCount 0x4000 - 1) _ rfl rfl
  | axrom state =>
    refine Axrom.installed_apply _ ?_ fun rom => Slot.shows_whole sized rom 0 slot
    rw [Slot.loadChr_map]
    exact h
  | mmc1 => exact Mmc1.installed_applyAll sized _ h
  | mmc3 => exact Mmc3.installed_applyBanks sized _ h
  | scripted => cases hbuiltin

include sized in
theorem installed_write {board : Board} {slot : Slot} (h : board.Installed image slot)
    (addr : UInt16) (data : UInt8) :
    (board.write image addr data slot).1.Installed image (board.write image addr data slot).2 := by
  cases board with
  | nrom => exact h
  | uxrom =>
    simp only [write, wrap]
    exact Uxrom.installed_write h data
  | cnrom => exact Cnrom.installed_write sized h data
  | axrom => exact Axrom.installed_write h data
  | mmc1 => exact Mmc1.installed_write sized h addr data
  | mmc3 => exact Mmc3.installed_write sized h addr data
  | scripted => cases h.builtin

theorem installed_preLine {board : Board} {slot : Slot} (h : board.Installed image slot)
    (line : Nat) :
    (board.preLine image line slot).1.Installed image (board.preLine image line slot).2 := by
  cases board with
  | scripted => cases h.builtin
  | nrom | uxrom | cnrom | axrom | mmc1 | mmc3 => exact h

theorem installed_hblank {board : Board} {slot : Slot} (h : board.Installed image slot)
    (line : Nat) :
    (board.hblank image line slot).1.Installed image (board.hblank image line slot).2 := by
  cases board with
  | scripted => cases h.builtin
  | mmc3 => exact Mmc3.installed_hblank h line
  | nrom | uxrom | cnrom | axrom | mmc1 => exact h

theorem installed_vblank {board : Board} {slot : Slot} (h : board.Installed image slot) :
    (board.vblank image slot).1.Installed image (board.vblank image slot).2 := by
  cases board with
  | scripted => cases h.builtin
  | nrom | uxrom | cnrom | axrom | mmc1 | mmc3 => exact h

end Board
end Nes
