/-
  What the reset button restores of a cartridge.

  The button makes the board start over, whatever its registers, the memory map and the pattern
  tables had become. `reset_restores_iff` compares what it leaves with a new cartridge in a
  console that has been switched on, part by part: the IRQ line is always restored, the memory
  map and the pattern tables are but for an MMC3, and the nametables are but for an MMC1.

  The exceptions are not what the boards say of themselves. The mirroring of an MMC1 follows the
  header until a program writes the control register, yet after the button there is a single
  nametable (`reset_forgets_header`).
-/
import Nes.Proofs.Board.StartOver
import Nes.Proofs.Console.InstalledBanks

namespace Nes

open MemoryMap

namespace System

/-! ## The mirroring of an MMC1 -/

theorem mirroring_initBoard {system : System}
    (hbuiltin : system.cartridge.pristine.isBuiltin = true) (kind : ResetKind) :
    (system.initBoard kind).hardware.ppu.memory.mirroring =
      (system.cartridge.pristine.init system.cartridge.image kind system.startSlot).1.mirroring
        system.cartridge.image :=
  congrArg Prod.fst (Board.init_arrangement hbuiltin _ kind _)

theorem mirroring_reset_mmc1 {system : System} (h : system.cartridge.pristine = .mmc1 {}) :
    (system.initBoard .soft).hardware.ppu.memory.mirroring = .lower := by
  rw [mirroring_initBoard (by rw [h]; rfl), h]
  exact Mmc1.mirroring_soft _ _

theorem mirroring_poweredOn_mmc1 (image : Image) :
    (poweredOn image (.mmc1 {})).hardware.ppu.memory.mirroring =
      if image.header.mirroring = .vertical then .vertical else .horizontal := by
  unfold poweredOn
  rw [mirroring_initBoard rfl]
  exact Mmc1.mirroring_power image _

/-! ## The result -/

/-- What the reset button makes of each part that a board reaches, compared with power-on: the
    IRQ line, the memory map, the nametables, and the pattern tables if they are ROM. -/
theorem reset_restores_iff {bytes : Bytes} {image : Image} (hparse : Image.parse bytes = .ok image)
    {id : UInt16} {board : Board} (hboard : Board.builtin? id = some board) (events : List Event)
    {system : System} (hsystem : (poweredOn image board).follow events = system) :
    (system.initBoard .soft).cartridge.irq = (poweredOn image board).cartridge.irq ∧
    ((system.initBoard .soft).hardware.map = (poweredOn image board).hardware.map ↔
      board.mapper ≠ 4 ∨ image.header.prgBanks = 0) ∧
    ((system.initBoard .soft).hardware.ppu.memory.arrangement =
        (poweredOn image board).hardware.ppu.memory.arrangement ↔ board.mapper ≠ 1) ∧
    (image.hasChrRam = false →
      ((system.initBoard .soft).hardware.ppu.memory.patterns =
          (poweredOn image board).hardware.ppu.memory.patterns ↔
        board.mapper ≠ 4 ∨ ∀ i, i < 0x2000 →
          image.chr[if i < 0x1000 then i % 0x800 else i % 0x400]? = image.chr[i]?)) := by
  have sized := Image.sized_of_parse hparse
  have hbuiltin := Board.isBuiltin_of_builtin? hboard
  have hrun : Run (poweredOn image board) system := hsystem ▸ run_follow _ events
  have hbanked := banked_run sized hrun (banked_powerOn sized hbuiltin)
  have hpristine : system.cartridge.pristine = board := hrun.image_eq.2
  have hfilled : Filled system.startSlot.map consoleWindows 0x8000 := hbanked.installed.filled
  have hfresh := filled_startSlot (.ofImage image board)
  -- both start over from the board as it was built
  have hsoft : (system.initBoard .soft).slot = (board.init image .soft system.startSlot).2 := by
    rw [initBoard_slot, hpristine, hbanked.image_eq]
  have hirq : (system.initBoard .soft).slot.irq = (poweredOn image board).slot.irq := by
    rw [hsoft, poweredOn_slot, Board.init_irq hbuiltin, Board.init_irq hbuiltin]
    rfl
  have hmap := Board.init_map_iff sized hboard hfilled hfresh
  have harrangement := Board.init_arrangement_iff hboard image system.startSlot
    (plugged {} (.ofImage image board)).startSlot
  have hpatterns := Board.init_patterns_iff sized hboard hfilled hfresh
  rw [← hsoft, ← poweredOn_slot] at hmap harrangement hpatterns
  exact ⟨hirq, hmap, harrangement, hpatterns⟩

/-- A blank MMC1 after a write to the board and a line: all is restored but the nametables. -/
theorem reset_restores_iff_of_blankRom :
    ∃ system : System,
      (poweredOn .blank (.mmc1 {})).follow [.write 0x8000 0x80, .hblank 0] = system ∧
      (system.initBoard .soft).hardware.map =
        (poweredOn .blank (.mmc1 {})).hardware.map ∧
      (system.initBoard .soft).hardware.ppu.memory.patterns =
        (poweredOn .blank (.mmc1 {})).hardware.ppu.memory.patterns ∧
      (system.initBoard .soft).hardware.ppu.memory.arrangement ≠
        (poweredOn .blank (.mmc1 {})).hardware.ppu.memory.arrangement := by
  have hboard : Board.builtin? 1 = some (.mmc1 {}) := rfl
  have hrom : Image.blank.hasChrRam = false := by simp [Image.hasChrRam, Image.blank]
  have hmapper : (Board.mmc1 {}).mapper ≠ 4 := by decide
  obtain ⟨_, hmap, harrangement, hpatterns⟩ := reset_restores_iff Image.parse_blankRom hboard
    [.write 0x8000 0x80, .hblank 0] rfl
  refine ⟨_, rfl, hmap.mpr (.inl hmapper), (hpatterns hrom).mpr (.inl hmapper), ?_⟩
  intro heq
  exact harrangement.mp heq rfl

/-- The header of a blank MMC1 asks for two nametables one above the other. There are after
    power-on; after the button there is one. -/
theorem reset_forgets_header :
    Image.parse Image.blankRom = .ok .blank ∧ Image.blank.header.mirroring = .horizontal ∧
      Board.builtin? 1 = some (.mmc1 {}) ∧
      (poweredOn .blank (.mmc1 {})).hardware.ppu.memory.mirroring = .horizontal ∧
      ((poweredOn .blank (.mmc1 {})).initBoard .soft).hardware.ppu.memory.mirroring = .lower := by
  have hpower := mirroring_poweredOn_mmc1 .blank
  rw [if_neg (by decide)] at hpower
  exact ⟨Image.parse_blankRom, rfl, rfl, hpower, mirroring_reset_mmc1 (poweredOn_pristine _ _)⟩

end System
end Nes
