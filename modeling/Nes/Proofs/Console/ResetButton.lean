/-
  What the reset button keeps, and what it clears.

  Model (read this before the theorems). The button makes five parts start over, one after the
  other: the board as it was built, the registers of the PPU, the channels of the APU, and the CPU,
  which then reads where to begin from the reset vector. The parts are compared one by one with
  what they were: `System.Survives` lists what is the same, `System.Silent` what is cleared, and
  `Cartridge.resetTarget` is the vector in the banks that the board selects after it has started
  over.

  No state of the console is excluded; in particular nothing is asked of the memory map, in which
  the board maps the vectors anew (`Board.resolve_init`), and of the pattern tables, beyond which
  it loads nothing (`Board.keeps_init`). The one condition is that the board needs no script.
-/
import Nes.Proofs.Board.Actions
import Nes.Proofs.Board.Restart
import Nes.Proofs.Board.StartOver
import Nes.Proofs.Console.Reactions

namespace Nes

/-! ## The reset vector -/

namespace Cartridge

/-- What a read of the PRG space gives in the banks that the board selects, `x` counting from
    $8000. Where there is no ROM, it gives the byte that was last on the data lines. -/
def prgRead (cartridge : Cartridge) (openBus : UInt8) (x : Nat) : UInt8 :=
  (cartridge.prgByte?
    (cartridge.image.prgOffset (cartridge.board.prgLayout cartridge.image) x)).getD openBus

/-- The word at the reset vector. The first byte is on the data lines when the second is read. -/
def resetTarget (cartridge : Cartridge) (openBus : UInt8) : UInt16 :=
  let low := cartridge.prgRead openBus 0x7FFC
  word low (cartridge.prgRead low 0x7FFD)

end Cartridge

namespace System

/-- The vectors are in the banks that the board selects. -/
def ShowsVectors (system : System) : Prop :=
  ∀ addr : UInt16, 0xE000 ≤ addr → system.hardware.map.resolve addr =
    (.prg, system.cartridge.image.prgOffset
      (system.cartridge.board.prgLayout system.cartridge.image) (addr.toNat - 0x8000))

theorem read_vector {system : System} (h : system.ShowsVectors) {addr : UInt16}
    (haddr : 0xE000 ≤ addr) :
    Bus.read system addr =
      (system.cartridge.prgRead system.hardware.io.openBus (addr.toNat - 0x8000),
        system.mapIo (·.drive
          (system.cartridge.prgRead system.hardware.io.openBus (addr.toNat - 0x8000)))) := by
  show system.read addr = _
  unfold read access
  rw [h addr haddr]
  rfl

/-- The CPU begins at the word in the reset vector, and changes nothing but the byte on the data
    lines when it reads it. -/
theorem reset_soft (cpu : Cpu) {system : System} (h : system.ShowsVectors) :
    ∃ last : UInt8, Machine.reset ⟨cpu, system⟩ .soft =
      ⟨{ cpu with
          s := cpu.s - 3
          flags := { cpu.flags with interrupt := true }
          pc := system.cartridge.resetTarget system.hardware.io.openBus
          cycles := 0
          pending := .none },
        system.mapIo (·.drive last)⟩ := by
  have hlow := read_vector h (show 0xE000 ≤ resetVector by decide)
  generalize hbyte : system.cartridge.prgRead system.hardware.io.openBus _ = low at hlow
  have hdriven : (system.mapIo (·.drive low)).ShowsVectors := h
  have hhigh := read_vector hdriven (show 0xE000 ≤ resetVector + 1 by decide)
  refine ⟨system.cartridge.prgRead low 0x7FFD, ?_⟩
  unfold Machine.reset Machine.readWord Machine.read
  dsimp only
  rw [hlow]
  dsimp only
  rw [hhigh]
  subst hbyte
  rfl

/-! ## What is kept, and what is cleared -/

/-- What the button leaves as it was. -/
structure Survives (a b : System) : Prop where
  workRam : b.hardware.workRam = a.hardware.workRam
  /-- The bytes of save RAM, and the count of writes to it. -/
  save : b.cartridge.save = a.cartridge.save
  image : b.cartridge.image = a.cartridge.image
  pads : b.hardware.io.pad1 = a.hardware.io.pad1 ∧ b.hardware.io.pad2 = a.hardware.io.pad2
  names : b.hardware.ppu.memory.names = a.hardware.ppu.memory.names
  palette : b.hardware.ppu.memory.palette = a.hardware.ppu.memory.palette
  patterns : a.cartridge.image.hasChrRam = true →
    b.hardware.ppu.memory.patterns = a.hardware.ppu.memory.patterns
  oam : b.hardware.ppu.oam = a.hardware.ppu.oam

/-- What the button clears. -/
structure Silent (system : System) : Prop where
  control : system.hardware.ppu.control = {}
  mask : system.hardware.ppu.mask = {}
  status : system.hardware.ppu.status = {}
  oamAddress : system.hardware.ppu.oamAddress = 0
  scroll : system.hardware.ppu.scroll = {}
  readBuffer : system.hardware.ppu.readBuffer = 0
  latch : system.hardware.ppu.latch = 0
  nmi : system.hardware.ppu.nmiLatch = false
  pulse1 : system.hardware.apu.pulse1.length.value = 0
  pulse2 : system.hardware.apu.pulse2.length.value = 0
  triangle : system.hardware.apu.triangle.length.value = 0
  noise : system.hardware.apu.noise.length.value = 0
  dmc : system.hardware.apu.dmc.active = false
  /-- Neither the sequencer nor the DMC holds the IRQ line. -/
  apuIrq : system.hardware.apu.irq = false
  boardIrq : system.cartridge.irq = false

/-- The system after the button, when the CPU has read the vector and `last` is the byte that was
    on the data lines last. -/
def restarted (system : System) (last : UInt8) : System :=
  plugged (system.pressReset.mapIo (·.drive last)).hardware system.pressReset.cartridge

variable {system : System} (hbuiltin : system.cartridge.pristine.isBuiltin = true)
include hbuiltin

theorem survives_restarted (last : UInt8) : system.Survives (system.restarted last) := by
  have hkeeps := Board.keeps_init hbuiltin system.cartridge.image .soft system.startSlot
  have hrun :=
    Board.run_init system.cartridge.image system.startSlot system.cartridge.pristine .soft
  have hoam := congrArg Ppu.oam hrun.ppu_eq
  exact ⟨rfl, rfl, rfl, ⟨rfl, rfl⟩, hkeeps.names, hkeeps.palette, hkeeps.patterns, hoam⟩

theorem silent_restarted (last : UInt8) : (system.restarted last).Silent := by
  have hirq := Board.init_irq hbuiltin system.cartridge.image .soft system.startSlot
  exact ⟨rfl, rfl, rfl, rfl, rfl, rfl, rfl, rfl, rfl, rfl, rfl, rfl, rfl, rfl, hirq⟩

theorem showsVectors_pressReset : system.pressReset.ShowsVectors := fun _ inside =>
  Board.resolve_init hbuiltin system.cartridge.image .soft system.startSlot inside

end System

/-! ## The result -/

namespace Console

/-- The frame that is asked for next begins when the button has done its work. No frame was left
    undrawn since, so it is not dropped. -/
theorem begun_pressReset {console : Console} {cartridge : Cartridge} (on : console.phase = .reset)
    (plugged : console.cartridge = some cartridge) {turn : Turn}
    {frame : (UInt8 × UInt8) × Bool} (asked : turn.frame? = some frame) :
    console.begun? turn = some console.pressReset.2 := by
  have hready : console.ready? turn.files = some console.pressReset := by
    unfold ready?
    rw [on]
  have hskipped : console.pressReset.2.skipped = 0 := by
    rw [pressReset_some plugged]
    rfl
  refine begun_eq_some.mpr ⟨frame.1, frame.2, _, asked, hready, ?_⟩
  rw [hskipped]
  simp [skipLimit]

/-- The frame after the button was pressed begins from a console that has started over, in any
    state and with any built-in board. -/
theorem pressReset_starts_over {console : Console} {cartridge : Cartridge}
    (on : console.phase = .reset) (plugged : console.cartridge = some cartridge)
    (hbuiltin : cartridge.pristine.isBuiltin = true) :
    ∃ (after : Console) (new : Cartridge), after.cartridge = some new ∧
      (∀ turn frame, turn.frame? = some frame → console.begun? turn = some after) ∧
      (System.plugged console.hardware cartridge).Survives (.plugged after.hardware new) ∧
      after.schedule = console.schedule ∧
      (System.plugged after.hardware new).Silent ∧
      new.board = ((System.plugged console.hardware cartridge).initBoard .soft).cartridge.board ∧
      after.hardware.map =
        ((System.plugged console.hardware cartridge).initBoard .soft).hardware.map ∧
      (System.plugged after.hardware new).ShowsVectors ∧
      after.cpu = { console.cpu with
        s := console.cpu.s - 3
        flags := { console.cpu.flags with interrupt := true }
        pc := new.resetTarget console.hardware.io.openBus
        cycles := 0
        pending := .none } := by
  let system := System.plugged console.hardware cartridge
  have hsystem : system.cartridge.pristine.isBuiltin = true := hbuiltin
  have hvectors := System.showsVectors_pressReset hsystem
  obtain ⟨last, hreset⟩ := System.reset_soft console.cpu hvectors
  have hover : startedOver console.cpu console.hardware cartridge = _ := hreset
  have hpress := pressReset_some plugged
  rw [hover] at hpress
  have hbegun (turn : Turn) (frame : (UInt8 × UInt8) × Bool) (asked : turn.frame? = some frame) :=
    begun_pressReset on plugged asked
  rw [hpress] at hbegun
  exact ⟨_, system.pressReset.cartridge, rfl, hbegun, System.survives_restarted hsystem last, rfl,
    System.silent_restarted hsystem last, rfl, rfl, hvectors, rfl⟩

/-- A blank MMC1, with something in a register and the stack pointer at its lower end. -/
theorem pressReset_starts_over_blank :
    let cartridge : Cartridge := .ofImage .blank (.mmc1 {})
    let console : Console :=
      { cpu := { a := 7, s := 1, pending := .irq }, phase := .reset, cartridge := some cartridge }
    console.phase = .reset ∧ console.cartridge = some cartridge ∧
      cartridge.pristine.isBuiltin = true ∧
      ∃ (after : Console) (new : Cartridge), after.cartridge = some new ∧
        new.save = cartridge.save ∧ after.cpu.a = 7 ∧ after.cpu.s = 0xFE ∧
        after.cpu.flags = { interrupt := true } ∧ after.cpu.pending = .none ∧
        after.hardware.apu.irq = false := by
  intro cartridge console
  obtain ⟨after, new, hnew, _, hsurvives, _, hsilent, _, _, _, hcpu⟩ :=
    @pressReset_starts_over console cartridge rfl rfl rfl
  refine ⟨rfl, rfl, rfl, after, new, hnew, hsurvives.save, ?_, ?_, ?_, ?_, hsilent.apuIrq⟩
  all_goals rw [hcpu]
  all_goals rfl

end Console
end Nes
