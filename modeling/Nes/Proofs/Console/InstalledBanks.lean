/-
  What the CPU and the PPU see of a cartridge is what its board's registers select.

  `System.Banked` is the invariant: the board is one of the built-in ones, the PPU may write the
  pattern tables only if they are RAM, and the memory map and the pattern tables are those of the
  board's registers. It holds when the cartridge is switched on (`banked_powerOn`) and every
  operation of every part of the system keeps it (`banked_step`): the CPU reaches the map by
  nothing but writes to the board, and the pattern tables by nothing but the PPU's data register.

  So after any sequence of reads, writes, hooks and resets (`follow_selected_banks`) the addresses
  below $8000 are the console's own, those above show the selected PRG banks, and the pattern
  tables hold the selected CHR banks.
-/
import Nes.Proofs.Board.Actions
import Nes.Proofs.Board.Installed
import Nes.Proofs.Console.Requests

namespace Nes

open MemoryMap

namespace System

/-! ## The invariant -/

/-- The cartridge has a built-in board, and all that it shows is what the registers select. -/
structure Banked (image : Image) (system : System) : Prop where
  image_eq : system.cartridge.image = image
  pristine : system.cartridge.pristine.isBuiltin = true
  writable : system.slot.ppu.chrWritable = image.hasChrRam
  installed : system.cartridge.board.Installed image system.slot

/-- A new cartridge in a console that has been switched on. -/
def poweredOn (image : Image) (board : Board) : System :=
  (plugged {} (.ofImage image board)).initBoard .power

theorem poweredOn_pristine (image : Image) (board : Board) :
    (poweredOn image board).cartridge.pristine = board := rfl

theorem poweredOn_slot (image : Image) (board : Board) :
    (poweredOn image board).slot =
      (board.init image .power (plugged {} (.ofImage image board)).startSlot).2 := rfl

variable {image : Image} {system : System}

theorem banked_onBoard (h : Banked image system) {act : Board → Image → Slot → Board × Slot}
    (hinstalled : (act system.cartridge.board image system.slot).1.Installed image
      (act system.cartridge.board image system.slot).2)
    (hrun : Slot.Run image system.slot (act system.cartridge.board image system.slot).2) :
    Banked image (system.onBoard act) := by
  have himage := h.image_eq
  subst himage
  refine ⟨rfl, h.pristine, ?_, hinstalled⟩
  rw [onBoard_slot, hrun.ppu_eq]
  exact h.writable

/-- Starting over, whatever the PRG space showed before. -/
theorem banked_initBoard (sized : image.Sized) (himage : system.cartridge.image = image)
    (hpristine : system.cartridge.pristine.isBuiltin = true)
    (hfilled : Filled system.startSlot.map consoleWindows 0x8000) (kind : ResetKind) :
    Banked image (system.initBoard kind) := by
  subst himage
  refine ⟨rfl, hpristine, ?_, Board.installed_init sized hpristine kind hfilled⟩
  have hrun := Board.run_init system.cartridge.image system.startSlot system.cartridge.pristine kind
  rw [initBoard_slot, hrun.ppu_eq]
  rfl

/-- The map of a console without a cartridge leaves the PRG space to the board. -/
theorem filled_startSlot (cartridge : Cartridge) :
    Filled (plugged {} cartridge).startSlot.map consoleWindows 0x8000 := by
  refine filled_console ?_ console_windows
  intro w hw
  rw [List.mem_singleton] at hw
  subst hw
  decide

theorem banked_powerOn (sized : image.Sized) {board : Board} (hbuiltin : board.isBuiltin = true) :
    Banked image (poweredOn image board) :=
  banked_initBoard sized rfl hbuiltin (filled_startSlot _) .power

/-- An operation of the PPU leaves the map alone, and the pattern tables if they are ROM. -/
theorem banked_mapPpu (h : Banked image system) {f : Ppu → Ppu}
    (step : system.hardware.ppu.Step (f system.hardware.ppu)) :
    Banked image (system.mapPpu f) := by
  obtain ⟨hwritable, hpatterns⟩ := Ppu.keepsChr_step step
  refine ⟨h.image_eq, h.pristine, hwritable.trans h.writable, ?_⟩
  exact h.installed.keep h.installed.builtin rfl rfl rfl fun rom =>
    hpatterns (h.writable.trans rom)

/-- Every operation keeps the map and the pattern tables in step with the registers. -/
theorem banked_step (sized : image.Sized) {a b : System} (step : Step a b) (h : Banked image a) :
    Banked image b := by
  cases step with
  | ppu f step => exact banked_mapPpu h step
  | apu | io | writeWorkRam | writeSave =>
    exact ⟨h.image_eq, h.pristine, h.writable, h.installed⟩
  | writeBoard addr data =>
    exact banked_onBoard h (Board.installed_write sized h.installed addr data)
      (Board.run_write image a.slot a.cartridge.board addr data)
  | preLine line =>
    exact banked_onBoard h (Board.installed_preLine h.installed line)
      (Board.run_preLine image a.slot a.cartridge.board line)
  | hblank line =>
    exact banked_onBoard h (Board.installed_hblank h.installed line)
      (Board.run_hblank image a.slot a.cartridge.board line)
  | vblank =>
    exact banked_onBoard h (Board.installed_vblank h.installed)
      (Board.run_vblank image a.slot a.cartridge.board)
  | resetBoard => exact banked_initBoard sized h.image_eq h.pristine h.installed.filled .soft

theorem banked_run (sized : image.Sized) {a b : System} (run : Run a b) (h : Banked image a) :
    Banked image b :=
  run.keeps (fun step ih => banked_step sized step ih) h

/-! ## What addresses show -/

theorem resolve_console (h : Banked image system) {addr : UInt16} (haddr : addr < 0x8000) :
    system.hardware.map.resolve addr = console.resolve addr := by
  have hlt : addr.toNat < 0x8000 := UInt16.lt_iff_toNat_lt.mp haddr
  have hwindows : system.hardware.map.windows = consoleWindows ++ _ := h.installed.windows
  unfold resolve
  rw [hwindows, lookup_console hlt]

theorem resolve_prg (h : Banked image system) {addr : UInt16} (haddr : 0x8000 ≤ addr) :
    system.hardware.map.resolve addr =
      (.prg, image.prgOffset (system.cartridge.board.prgLayout image) (addr.toNat - 0x8000)) := by
  have hle : 0x8000 ≤ addr.toNat := UInt16.le_iff_toNat_le.mp haddr
  have hlt : addr.toNat < 0x10000 := UInt16.toNat_lt addr
  have hwindows : system.hardware.map.windows = consoleWindows ++ _ := h.installed.windows
  have hall : addr.toNat - 0x8000 <
      (0 + 0x8000 / (system.cartridge.board.prgLayout image).unit) *
        (system.cartridge.board.prgLayout image).unit := by
    obtain hunit | hunit := system.cartridge.board.prgLayout_unit image
    · rw [hunit]
      omega
    · rw [hunit]
      omega
  have hfirst : 0 * (system.cartridge.board.prgLayout image).unit ≤ addr.toNat - 0x8000 := by omega
  have hlookup := BankLayout.lookup_windowsFrom
    (system.cartridge.board.prgLayout_unit_pos image)
    (image.prgBankCount (system.cartridge.board.prgLayout image).unit) hfirst hall
  rw [Nat.add_sub_cancel' hle] at hlookup
  unfold resolve Image.prgOffset
  rw [hwindows, lookup_above endBelow_console hle]
  exact hlookup

end System

/-- The banks of a layout lie inside the ROM. -/
theorem Board.prgOffset_lt (board : Board) {image : Image} (sized : image.Sized)
    (hbanks : 0 < image.header.prgBanks) (x : Nat) :
    image.prgOffset (board.prgLayout image) x < image.prg.size := by
  have hunit := board.prgLayout_unit_pos image
  have hsize : image.prgBankCount (board.prgLayout image).unit * (board.prgLayout image).unit =
      image.prg.size := by
    obtain h | h := board.prgLayout_unit image
    · rw [h]
      exact (sized.prgBanks hbanks).1
    · rw [h]
      exact (sized.prgBanks hbanks).2
  unfold Image.prgOffset BankLayout.offset
  generalize (board.prgLayout image).bank (x / (board.prgLayout image).unit) = bank
  generalize (board.prgLayout image).unit = unit at hunit hsize ⊢
  have hbank : bank % image.prgBankCount unit < image.prgBankCount unit :=
    Nat.mod_lt _ (image.prgBankCount_pos unit)
  have hbyte : x % unit < unit := Nat.mod_lt _ hunit
  calc bank % image.prgBankCount unit * unit + x % unit
      < (bank % image.prgBankCount unit + 1) * unit := by
        rw [Nat.add_mul, Nat.one_mul]
        omega
    _ ≤ image.prgBankCount unit * unit := Nat.mul_le_mul_right unit hbank
    _ = image.prg.size := hsize

namespace System

/-! ## The result -/

/-- After any sequence of reads and writes by the CPU, scanlines and resets, the console's own
    devices are where they were, the PRG space shows the PRG banks that the registers select, and
    the pattern tables hold the CHR ROM banks that they select. -/
theorem follow_selected_banks {bytes : Bytes} {image : Image}
    (hparse : Image.parse bytes = .ok image) (hbanks : 0 < image.header.prgBanks) {id : UInt16}
    {board : Board} (hboard : Board.builtin? id = some board) (events : List Event)
    {system : System} (hsystem : (poweredOn image board).follow events = system) :
    (∀ addr : UInt16, addr < 0x8000 →
      system.hardware.map.resolve addr = MemoryMap.console.resolve addr) ∧
    (∀ addr : UInt16, 0x8000 ≤ addr →
      system.hardware.map.resolve addr = (.prg,
        image.prgOffset (system.cartridge.board.prgLayout image) (addr.toNat - 0x8000)) ∧
      image.prgOffset (system.cartridge.board.prgLayout image) (addr.toNat - 0x8000) <
        image.prg.size) ∧
    (image.hasChrRam = false →
      Shows image system.cartridge.board.chrLayout system.hardware.ppu.memory.patterns) := by
  have sized := Image.sized_of_parse hparse
  have hbanked : Banked image system := by
    rw [← hsystem]
    exact banked_run sized (run_follow _ events)
      (banked_powerOn sized (Board.isBuiltin_of_builtin? hboard))
  refine ⟨fun addr haddr => resolve_console hbanked haddr, fun addr haddr => ?_,
    hbanked.installed.patterns⟩
  exact ⟨resolve_prg hbanked haddr, system.cartridge.board.prgOffset_lt sized hbanks _⟩

/-- A blank MMC1 after a write that gives up the bits so far, a write of the PPU's data register,
    and the reset button. -/
theorem follow_selected_banks_of_blankRom :
    ∃ system : System,
      (poweredOn .blank (.mmc1 {})).follow
        [.write 0x8000 0x80, .write 0x2007 0x55, .reset] = system ∧
      system.hardware.map.resolve 0x0000 = MemoryMap.console.resolve 0x0000 ∧
      system.hardware.map.resolve 0xFFFF = (.prg,
        Image.blank.prgOffset (system.cartridge.board.prgLayout .blank) 0x7FFF) ∧
      Shows .blank system.cartridge.board.chrLayout system.hardware.ppu.memory.patterns := by
  have hbanks : 0 < Image.blank.header.prgBanks := by decide
  have hboard : Board.builtin? 1 = some (.mmc1 {}) := rfl
  have hrom : Image.blank.hasChrRam = false := by simp [Image.hasChrRam, Image.blank]
  obtain ⟨hconsole, hprg, hchr⟩ := follow_selected_banks Image.parse_blankRom hbanks hboard
    [.write 0x8000 0x80, .write 0x2007 0x55, .reset] rfl
  exact ⟨_, rfl, hconsole 0x0000 (by decide), (hprg 0xFFFF (by decide)).1, hchr hrom⟩

end System
end Nes
