/-
  Programs that come to rest.

  `Resting` is the system under such a program: an NROM that shows its image, a PPU that asks for
  no NMI, and save RAM with a given content. With interrupts off and the program counter at a
  jump to itself (`Looping`), nothing of that changes any more: not by a step, by a scanline or by
  a frame (`looping_lines`).

  `frame_stores` is the smallest program with an effect: it stores A in save RAM and then jumps to
  itself. After its first frame save RAM has that one byte more, and was written once.
-/
import Nes.Proofs.Console.InstalledBanks

namespace Nes

/-! ## A PPU that asks for no NMI -/

/-- The NMI is off, and no edge of it is latched. -/
structure Ppu.Silent (ppu : Ppu) : Prop where
  off : ppu.control.nmi = false
  unlatched : ppu.nmiLatch = false

namespace Ppu

theorem silent_preRender {ppu : Ppu} (h : ppu.Silent) (line : Nat) :
    (ppu.preRender line).Silent := by
  have hlatch : (ppu.nmiLatch || ppu.control.nmi) = false := by rw [h.off, h.unlatched]; rfl
  unfold preRender
  split
  · split
    · exact ⟨h.off, h.unlatched⟩
    · exact h
  · split
    · split
      · exact ⟨h.off, h.unlatched⟩
      · exact h
    · split
      · exact ⟨h.off, hlatch⟩
      · split
        · exact ⟨h.off, h.unlatched⟩
        · exact h

theorem silent_renderScanline {ppu : Ppu} (h : ppu.Silent) (line : Nat)
    (picture : Option Picture) : (ppu.renderScanline line picture).2.Silent := by
  unfold renderScanline
  split
  · exact h
  · dsimp only
    split
    · unfold drawLine evaluateSprites
      split
      · exact ⟨h.off, h.unlatched⟩
      · exact ⟨h.off, h.unlatched⟩
    · exact ⟨h.off, h.unlatched⟩

end Ppu

/-! ## The system under the program -/

/-- The byte that an NROM with the image shows at an address of the PRG space. -/
def Image.shown? (image : Image) (addr : UInt16) : Option UInt8 :=
  image.prg[image.prgOffset (Board.nrom.prgLayout image) (addr.toNat - 0x8000)]?

namespace System

/-- An NROM with the image, save RAM with the content `save`, and a PPU that asks for no NMI. -/
structure Resting (image : Image) (save : SaveRam) (system : System) : Prop where
  banked : Banked image system
  nrom : system.cartridge.board = .nrom
  save_eq : system.cartridge.save = save
  silent : system.hardware.ppu.Silent

variable {image : Image} {save : SaveRam} {system : System}

theorem resting_mapIo (h : Resting image save system) (f : IoBlock → IoBlock) :
    Resting image save (system.mapIo f) := by
  obtain ⟨image_eq, pristine, writable, installed⟩ := h.banked
  exact ⟨⟨image_eq, pristine, writable, installed⟩, h.nrom, h.save_eq, h.silent⟩

theorem resting_mapApu (h : Resting image save system) (f : Apu → Apu) :
    Resting image save (system.mapApu f) := by
  obtain ⟨image_eq, pristine, writable, installed⟩ := h.banked
  exact ⟨⟨image_eq, pristine, writable, installed⟩, h.nrom, h.save_eq, h.silent⟩

theorem resting_mapPpu (h : Resting image save system) {f : Ppu → Ppu}
    (step : system.hardware.ppu.Step (f system.hardware.ppu))
    (silent : (f system.hardware.ppu).Silent) : Resting image save (system.mapPpu f) :=
  ⟨banked_mapPpu h.banked step, h.nrom, h.save_eq, silent⟩

theorem resting_mapSave (h : Resting image save system) (f : SaveRam → SaveRam) :
    Resting image (f save) (system.mapSave f) := by
  obtain ⟨image_eq, pristine, writable, installed⟩ := h.banked
  exact ⟨⟨image_eq, pristine, writable, installed⟩, h.nrom, congrArg f h.save_eq, h.silent⟩

/-- The board's notes do not matter. -/
theorem resting_forget (h : Resting image save system) :
    Resting image save (plugged system.hardware system.cartridge) := by
  obtain ⟨image_eq, pristine, writable, installed⟩ := h.banked
  exact ⟨⟨image_eq, pristine, writable,
    installed.builtin, installed.windows, installed.patterns⟩, h.nrom, h.save_eq, h.silent⟩

/-- An NROM does nothing when it is called. -/
theorem onBoard_nrom (h : system.cartridge.board = .nrom)
    {act : Board → Image → Slot → Board × Slot}
    (idle : ∀ image slot, act .nrom image slot = (.nrom, slot)) :
    system.onBoard act = system := by
  obtain ⟨⟨map, workRam, ppu, apu, io⟩, ⟨image, board, pristine, save, irq⟩, journal⟩ := system
  cases h
  simp only [onBoard, idle]

theorem resting_beforeLine (h : Resting image save system) (line : Nat) :
    Resting image save (Scan.beforeLine system line) := by
  have hvblank : (if line = vblankLine then system.vblank else system) = system := by
    split
    · exact onBoard_nrom h.nrom fun _ _ => rfl
    · rfl
  have hstart := resting_mapPpu h (f := (·.preRender line)) (.preRender _ line)
    (Ppu.silent_preRender h.silent line)
  have hpreLine : (system.mapPpu (·.preRender line)).preLine line =
      system.mapPpu (·.preRender line) := onBoard_nrom hstart.nrom fun _ _ => rfl
  unfold Scan.beforeLine
  rw [hvblank, hpreLine]
  exact hstart

/-- The PPU's share of a line leaves the system at rest. -/
theorem resting_draw {scan : Scan} (h : Resting image save scan.machine.bus) (line : Nat) :
    Resting image save (scan.draw line).machine.bus := by
  have hbefore := resting_beforeLine h line
  have hrender := resting_mapPpu hbefore
    (f := fun ppu => (ppu.renderScanline line scan.picture).2) (.renderScanline _ line _)
    (Ppu.silent_renderScanline hbefore.silent line scan.picture)
  rw [Scan.draw_machine]
  unfold hblank
  dsimp only
  rw [onBoard_nrom hrender.nrom fun _ _ => rfl]
  exact hrender

/-- A byte of the program is read. -/
theorem read_shown (h : Resting image save system) {addr : UInt16} (space : prgSpace ≤ addr)
    {byte : UInt8} (shown : image.shown? addr = some byte) :
    system.read addr = (byte, system.mapIo (·.drive byte)) := by
  have haccess : system.access addr = (byte, system) := by
    unfold access
    rw [resolve_prg h.banked space]
    dsimp only
    unfold Cartridge.prgByte?
    rw [h.banked.image_eq, h.nrom]
    unfold Image.shown? at shown
    rw [shown]
    rfl
  unfold read
  rw [haccess]

/-- A byte is stored in save RAM. -/
theorem write_save (h : Resting image save system) {addr : UInt16} {offset : Nat}
    (below : addr < prgSpace) (resolves : MemoryMap.console.resolve addr = (.saveRam, offset))
    (data : UInt8) :
    system.write addr data = (system.mapIo (·.drive data)).mapSave (·.write offset data) := by
  have hdrive := resting_mapIo h (·.drive data)
  unfold write
  dsimp only
  rw [if_neg (UInt16.not_le.mpr below), resolve_console hdrive.banked below, resolves]

end System

/-! ## The machine -/

/-- An instruction with an absolute operand, as the image shows it at an address. -/
structure Image.Absolute (image : Image) (pc : UInt16) (opcode : UInt8) (operand : UInt16) :
    Prop where
  space : prgSpace ≤ pc ∧ prgSpace ≤ pc + 1 ∧ prgSpace ≤ pc + 1 + 1
  opcode : image.shown? pc = some opcode
  low : image.shown? (pc + 1) = some (lowByte operand)
  high : image.shown? (pc + 1 + 1) = some (highByte operand)

namespace Machine

variable {image : Image} {save : SaveRam} {m : Machine System}

/-- The system is at rest, and the CPU services no interrupt. -/
structure Calm (image : Image) (save : SaveRam) (m : Machine System) : Prop where
  resting : m.bus.Resting image save
  masked : m.cpu.flags.interrupt = true
  pending : m.cpu.pending = .none ∨ m.cpu.pending = .irq

/-- A program that jumps to itself at `pc`. -/
structure Looping (image : Image) (save : SaveRam) (pc : UInt16) (m : Machine System) : Prop
    extends Calm image save m where
  jump : image.Absolute pc 0x4C pc
  pc_eq : m.cpu.pc = pc

theorem calm_poll (h : Calm image save m) :
    Calm image save m.poll ∧ ∃ pending, m.poll.cpu = { m.cpu with pending } := by
  have hnmi : Bus.takeNmi m.bus = (false, m.bus.mapPpu (·.takeNmi.2)) :=
    Prod.ext h.resting.silent.unlatched rfl
  have hbus := System.resting_mapPpu h.resting (f := (·.takeNmi.2)) (.takeNmi _)
    ⟨h.resting.silent.off, rfl⟩
  unfold poll
  rw [hnmi]
  dsimp only
  obtain hpending | hpending := h.pending
  · simp only [Bool.false_eq_true, if_false, Cpu.request, hpending, Interrupt.priority]
    split
    · exact ⟨⟨hbus, h.masked, .inr rfl⟩, .irq, rfl⟩
    · exact ⟨⟨hbus, h.masked, .inl hpending⟩, m.cpu.pending, rfl⟩
  · simp only [Bool.false_eq_true, if_false, Cpu.request, hpending, Interrupt.priority]
    split
    · exact ⟨⟨hbus, h.masked, .inr hpending⟩, m.cpu.pending, rfl⟩
    · exact ⟨⟨hbus, h.masked, .inl rfl⟩, .none, rfl⟩

theorem due_calm (h : Calm image save m) : m.cpu.due = none := by
  unfold Cpu.due
  obtain hpending | hpending := h.pending
  · rw [hpending]
  · rw [hpending, h.masked]
    rfl

/-- A byte of the program is fetched. -/
theorem fetch_shown (h : Calm image save m) (space : prgSpace ≤ m.cpu.pc) {byte : UInt8}
    (shown : image.shown? m.cpu.pc = some byte) :
    ∃ m', m.fetch = (byte, m') ∧ Calm image save m' ∧
      m'.cpu = { m.cpu with pc := m.cpu.pc + 1 } := by
  have hread : Bus.read m.bus m.cpu.pc = (byte, m.bus.mapIo (·.drive byte)) :=
    System.read_shown h.resting space shown
  refine ⟨⟨{ m.cpu with pc := m.cpu.pc + 1 }, m.bus.mapIo (·.drive byte)⟩, ?_, ?_, rfl⟩
  · unfold fetch read
    rw [hread]
  · exact ⟨System.resting_mapIo h.resting (·.drive byte), h.masked, h.pending⟩

/-- An instruction with an absolute operand is fetched. -/
theorem next_absolute (h : Calm image save m) {opcode : UInt8} {addr : UInt16}
    (shown : image.Absolute m.cpu.pc opcode addr) {instruction : Instruction}
    (decodes : Instruction.decode opcode = instruction)
    (supported : instruction.mnemonic.supported = true) (mode : instruction.mode = .absolute) :
    ∃ m', m.next = (.execute m.cpu.pc opcode instruction (.address addr) false, m') ∧
      Calm image save m' ∧
      ∃ pending, m'.cpu = { m.cpu with pending, pc := m.cpu.pc + 1 + 1 + 1 } := by
  obtain ⟨hcalm, pending, hcpu⟩ := calm_poll h
  have hpc : m.poll.cpu.pc = m.cpu.pc := by rw [hcpu]
  rw [← hpc] at shown
  obtain ⟨m₁, hfetch₁, hcalm₁, hcpu₁⟩ := fetch_shown hcalm shown.space.1 shown.opcode
  have hpc₁ : m₁.cpu.pc = m.poll.cpu.pc + 1 := by rw [hcpu₁]
  obtain ⟨m₂, hfetch₂, hcalm₂, hcpu₂⟩ :=
    fetch_shown hcalm₁ (hpc₁ ▸ shown.space.2.1) (hpc₁ ▸ shown.low)
  have hpc₂ : m₂.cpu.pc = m.poll.cpu.pc + 1 + 1 := by rw [hcpu₂, hpc₁]
  obtain ⟨m₃, hfetch₃, hcalm₃, hcpu₃⟩ :=
    fetch_shown hcalm₂ (hpc₂ ▸ shown.space.2.2) (hpc₂ ▸ shown.high)
  have hoperand : m₁.operand .absolute = ((.address addr, false), m₃) := by
    unfold operand fetchWord
    simp only [hfetch₂, hfetch₃, word_halves]
  refine ⟨m₃, ?_, hcalm₃, pending, ?_⟩
  · unfold next
    simp only [due_calm hcalm, hfetch₁, decodes, supported, if_true, mode, hoperand, hpc]
  · rw [hcpu₃, hcpu₂, hcpu₁, hcpu]

/-! ## Two instructions -/

theorem decode_jump : Instruction.decode 0x4C = ⟨.jmp, .absolute, .fixed 3⟩ := by
  decide +kernel

theorem decode_store : Instruction.decode 0x8D = ⟨.sta, .absolute, .fixed 4⟩ := by
  decide +kernel

/-- A jump. -/
theorem calm_jump (h : Calm image save m) {target : UInt16}
    (shown : image.Absolute m.cpu.pc 0x4C target) :
    Calm image save m.step.2 ∧ m.step.2.cpu.pc = target := by
  obtain ⟨m', hnext, hcalm, _⟩ := next_absolute h shown decode_jump rfl rfl
  have hstep : m.step.2 = m'.mapCpu fun cpu => { cpu with pc := target } := by
    unfold step
    rw [hnext]
    rfl
  rw [hstep]
  exact ⟨⟨hcalm.resting, hcalm.masked, hcalm.pending⟩, rfl⟩

/-- The jump to itself. -/
theorem looping_step {pc : UInt16} (h : Looping image save pc m) :
    Looping image save pc m.step.2 := by
  have hjump : image.Absolute m.cpu.pc 0x4C pc := by
    rw [h.pc_eq]
    exact h.jump
  obtain ⟨hcalm, hpc⟩ := calm_jump h.toCalm hjump
  exact ⟨hcalm, h.jump, hpc⟩

/-- A store of A into save RAM. -/
theorem calm_store (h : Calm image save m) {addr : UInt16} {offset : Nat}
    (shown : image.Absolute m.cpu.pc 0x8D addr) (below : addr < prgSpace)
    (resolves : MemoryMap.console.resolve addr = (.saveRam, offset)) :
    Calm image (save.write offset m.cpu.a) m.step.2 ∧
      m.step.2.cpu.pc = m.cpu.pc + 1 + 1 + 1 := by
  obtain ⟨m', hnext, hcalm, pending, hcpu⟩ := next_absolute h shown decode_store rfl rfl
  have ha : m'.cpu.a = m.cpu.a := by rw [hcpu]
  have hpc : m'.cpu.pc = m.cpu.pc + 1 + 1 + 1 := by rw [hcpu]
  have hstep : m.step.2 = ⟨m'.cpu, m'.bus.write addr m.cpu.a⟩ := by
    unfold step
    rw [hnext, ← ha]
    rfl
  have hdrive := System.resting_mapIo hcalm.resting (·.drive m.cpu.a)
  rw [hstep, System.write_save hcalm.resting below resolves]
  exact ⟨⟨System.resting_mapSave hdrive (·.write offset m.cpu.a), hcalm.masked, hcalm.pending⟩,
    hpc⟩

/-! ## Scanlines -/

theorem calm_charge (h : Calm image save m) (spent : Nat) : Calm image save (m.charge spent) :=
  ⟨System.resting_mapIo h.resting fun io => { io with stall := 0 }, h.masked, h.pending⟩

theorem looping_spend {pc : UInt16} (h : Looping image save pc m) (fuel : Nat) :
    Looping image save pc (m.spend fuel) := by
  induction fuel generalizing m with
  | zero => exact h
  | succ fuel ih =>
    unfold spend
    split
    · have hstep := looping_step h
      exact ih ⟨calm_charge hstep.toCalm _, hstep.jump, hstep.pc_eq⟩
    · exact h

theorem looping_endLine {pc : UInt16} (h : Looping image save pc m) :
    Looping image save pc m.endLine :=
  ⟨⟨h.resting, h.masked, h.pending⟩, h.jump, h.pc_eq⟩

/-- A scanline in which the program only jumps. -/
theorem looping_runLine {pc : UInt16} (h : Looping image save pc m) (line : UInt16) :
    Looping image save pc (m.runLine line) := by
  have hbegin : Looping image save pc (m.beginLine line) :=
    ⟨⟨h.resting, h.masked, h.pending⟩, h.jump, h.pc_eq⟩
  exact looping_endLine (looping_spend hbegin lineSteps)

end Machine

/-- A program at `start` that stores A at `addr`, which is byte `offset` of save RAM, and then
    jumps to `target`. -/
structure Image.Stores (image : Image) (start target addr : UInt16) (offset : Nat) : Prop where
  store : image.Absolute start 0x8D addr
  jump : image.Absolute (start + 1 + 1 + 1) 0x4C target
  below : addr < prgSpace
  resolves : MemoryMap.console.resolve addr = (.saveRam, offset)

namespace Machine

variable {image : Image} {save : SaveRam} {m : Machine System}

theorem spend_early (early : m.cpu.cycles < lineCycles) (fuel : Nat) :
    m.spend (fuel + 1) = (m.step.2.charge m.step.1).spend fuel := by
  rw [spend]
  exact if_pos early

/-- The scanline in which the program stores its byte. -/
theorem stores_runLine (h : Calm image save m) {addr : UInt16} {offset : Nat}
    (program : image.Stores m.cpu.pc (m.cpu.pc + 1 + 1 + 1) addr offset)
    (early : m.cpu.cycles < lineCycles) (line : UInt16) :
    Looping image (save.write offset m.cpu.a) (m.cpu.pc + 1 + 1 + 1) (m.runLine line) := by
  have hbegin : Calm image save (m.beginLine line) := ⟨h.resting, h.masked, h.pending⟩
  obtain ⟨hcalm, hpc⟩ := calm_store hbegin program.store program.below program.resolves
  have hcharge := calm_charge hcalm (m.beginLine line).step.1
  have hspend := looping_spend ⟨hcharge, program.jump, hpc⟩ (lineSteps - 1)
  have hfirst : (m.beginLine line).spend lineSteps =
      ((m.beginLine line).step.2.charge (m.beginLine line).step.1).spend (lineSteps - 1) :=
    spend_early (m := m.beginLine line) early (lineSteps - 1)
  unfold runLine
  rw [hfirst]
  exact looping_endLine hspend

end Machine

/-! ## Frames -/

namespace Scan

open Machine

variable {image : Image} {save : SaveRam} {scan : Scan}

theorem calm_draw (h : Calm image save scan.machine) (line : Nat) :
    Calm image save (scan.draw line).machine :=
  ⟨System.resting_draw h.resting line, h.masked, h.pending⟩

theorem looping_listen {pc : UInt16} (h : Looping image save pc scan.machine) :
    Looping image save pc scan.listen.machine := by
  have hbus : scan.listen.machine.bus.Resting image save := by
    unfold listen
    dsimp only
    exact System.resting_mapApu h.resting fun apu => (apu.slice (peekMemory _ _ _)).2
  exact ⟨⟨hbus, h.masked, h.pending⟩, h.jump, h.pc_eq⟩

/-- The end of a line. -/
theorem looping_line {pc : UInt16} {line : Nat}
    (h : Looping image save pc ((scan.draw line).compute line).machine) :
    Looping image save pc (scan.line line).machine := by
  unfold Scan.line
  dsimp only
  split
  · exact looping_listen h
  · exact h

/-- Any number of lines in which the program only jumps. -/
theorem looping_lines {pc : UInt16} (h : Looping image save pc scan.machine) (lines : List Nat) :
    Looping image save pc (lines.foldl Scan.line scan).machine := by
  induction lines generalizing scan with
  | nil => exact h
  | cons line lines ih =>
    have hdraw : Looping image save pc (scan.draw line).machine :=
      ⟨calm_draw h.toCalm line, h.jump, h.pc_eq⟩
    exact ih (looping_line (looping_runLine hdraw (UInt16.ofNat line)))

/-- The frame in which the program stores its byte. -/
theorem frame_stores (h : Calm image save scan.machine) {addr : UInt16} {offset : Nat}
    (program : image.Stores scan.machine.cpu.pc (scan.machine.cpu.pc + 1 + 1 + 1) addr offset)
    (early : scan.machine.cpu.cycles < lineCycles) :
    Looping image (save.write offset scan.machine.cpu.a) (scan.machine.cpu.pc + 1 + 1 + 1)
      scan.frame.machine := by
  have hfirst : Looping image (save.write offset scan.machine.cpu.a)
      (scan.machine.cpu.pc + 1 + 1 + 1) (scan.line 0).machine :=
    looping_line (stores_runLine (calm_draw h 0) program early (UInt16.ofNat 0))
  have hlines : List.range frameLines = 0 :: (List.range (frameLines - 1)).map Nat.succ :=
    List.range_succ_eq_map
  unfold frame
  rw [hlines, List.foldl_cons]
  exact looping_lines hfirst _

end Scan

/-! ## Switching on -/

namespace System

theorem resting_poweredOn {image : Image} (sized : image.Sized) :
    Resting image (Cartridge.ofImage image .nrom).save (poweredOn image .nrom) := by
  refine ⟨banked_powerOn sized rfl, rfl, rfl, ?_⟩
  have hinit := Nrom.run_init image (plugged {} (.ofImage image .nrom)).startSlot
  have hppu : (poweredOn image .nrom).hardware.ppu =
      (Nrom.init image (plugged {} (.ofImage image .nrom)).startSlot).ppu := rfl
  rw [hppu, hinit.ppu_eq]
  exact ⟨rfl, rfl⟩

end System

namespace Console

open Machine

/-- An NROM is switched on whose reset vector leads to `start`. -/
theorem calm_switchedOn {image : Image} (sized : image.Sized) {start : UInt16}
    (low : image.shown? resetVector = some (lowByte start))
    (high : image.shown? (resetVector + 1) = some (highByte start)) (cpu : Cpu) :
    Calm image (Cartridge.ofImage image .nrom).save (switchedOn cpu (.ofImage image .nrom)) ∧
      ∃ line, (switchedOn cpu (.ofImage image .nrom)).cpu =
        { pc := start, line, flags := { interrupt := true } } := by
  have hrest := System.resting_poweredOn sized
  have hlow := System.read_shown hrest (by decide) low
  have hdriven := System.resting_mapIo hrest (·.drive (lowByte start))
  have hhigh := System.read_shown hdriven (by decide) high
  have hreset : switchedOn cpu (.ofImage image .nrom) =
      ⟨{ pc := start, line := cpu.line, flags := { interrupt := true } },
        (((System.poweredOn image .nrom).mapIo (·.drive (lowByte start))).mapIo
          (·.drive (highByte start)))⟩ := by
    have hlow' : Bus.read (System.poweredOn image .nrom) resetVector = _ := hlow
    have hhigh' : Bus.read _ (resetVector + 1) = _ := hhigh
    unfold switchedOn reset readWord Machine.read
    dsimp only
    unfold System.poweredOn at hlow' hhigh'
    rw [hlow']
    dsimp only
    rw [hhigh', word_halves]
    rfl
  rw [hreset]
  exact ⟨⟨System.resting_mapIo hdriven (·.drive (highByte start)), rfl, .inl rfl⟩, cpu.line, rfl⟩

end Console

/-! ## A ROM with such a program -/

namespace Image

/-- The program `STA $6000` and a jump to `target` at $8000, with all vectors leading to it. -/
def storeProgram (target : UInt16) : Bytes :=
  #[0x8D, 0x00, 0x60, 0x4C, lowByte target, highByte target] ++ Array.replicate 0x3FF4 0 ++
    #[0x00, 0x80, 0x00, 0x80, 0x00, 0x80]

/-- A header for an NROM with a battery, one PRG bank and CHR RAM. -/
def storeHeader : Bytes := #[0x4E, 0x45, 0x53, 0x1A, 1, 0, 2, 0, 0, 0, 0, 0, 0, 0, 0, 0]

/-- A ROM with the program. -/
def storeRom (target : UInt16) : Bytes := storeHeader ++ storeProgram target

/-- What is read from `storeRom`. -/
def storing (target : UInt16) : Image where
  header := ⟨1, 0, 0, .horizontal, true, false⟩
  prg := storeProgram target
  chr := #[]
  trainer := none
  key := Digest.sha1 (storeRom target)

theorem size_storeHeader : storeHeader.size = 16 := rfl

section
variable (target : UInt16)

theorem size_storeProgram : (storeProgram target).size = 0x4000 := by
  simp [storeProgram]

theorem header_storeRom : Header.parse (storeRom target) = .ok (storing target).header := by
  have hsize : ¬ (storeRom target).size < Header.size := by
    unfold storeRom Header.size
    rw [Array.size_append, size_storeHeader]
    omega
  have hmagic : (storeRom target).extract 0 4 = Header.magic := by
    simp [storeRom, storeHeader, Array.extract_append, Header.magic]
  show Header.parse (storeRom target) = .ok ⟨1, 0, 0, .horizontal, true, false⟩
  unfold Header.parse
  rw [dif_neg hsize]
  dsimp only
  rw [if_neg fun hne => hne hmagic]
  simp only [storeRom, storeHeader, Array.getElem_append]
  simp
  decide

theorem cut_storeRom : cut (storeRom target) 16 0x4000 .prg = .ok (storeProgram target) := by
  have hsize : (storeRom target).size = 16 + 0x4000 := by
    unfold storeRom
    rw [Array.size_append, size_storeHeader, size_storeProgram]
  have hprogram : (storeRom target).extract 16 (16 + 0x4000) = storeProgram target := by
    unfold storeRom
    rw [Array.extract_append, Array.extract_empty_of_size_le_start (Nat.le_of_eq size_storeHeader),
      Array.empty_append, size_storeHeader, Nat.sub_self, Nat.add_sub_cancel_left]
    exact Array.extract_eq_self_of_le (Nat.le_of_eq (size_storeProgram target))
  unfold cut
  rw [if_neg (by decide), if_pos (Nat.le_of_eq hsize.symm), hprogram]

theorem parse_storeRom : parse (storeRom target) = .ok (storing target) :=
  parse_of_sections (header_storeRom target) rfl (cut_storeRom target) (if_pos rfl)

theorem shown_storing (addr : UInt16) :
    (storing target).shown? addr = (storeProgram target)[(addr.toNat - 0x8000) % 0x4000]? := by
  have hprg : (storing target).prg = storeProgram target := rfl
  have hcount : (storing target).prgBankCount 0x4000 = 1 := by
    unfold prgBankCount
    rw [hprg, size_storeProgram]
    rfl
  unfold shown? Image.prgOffset BankLayout.offset Board.prgLayout
  dsimp only
  rw [hprg, hcount, Nat.mod_one, Nat.zero_mul, Nat.zero_add]

/-- The program of the ROM stores A in the first byte of save RAM. -/
theorem stores_storing : (storing target).Stores 0x8000 target 0x6000 0 where
  store := {
    space := by decide
    opcode := by rw [shown_storing]; simp [storeProgram]
    low := by rw [shown_storing]; simp [storeProgram, lowByte]
    high := by rw [shown_storing]; simp [storeProgram, highByte] }
  jump := {
    space := by decide
    opcode := by rw [shown_storing]; simp [storeProgram]
    low := by rw [shown_storing]; simp [storeProgram]
    high := by rw [shown_storing]; simp [storeProgram] }
  below := by decide
  resolves := by decide

/-- The reset vector of the ROM leads to the program. -/
theorem vector_storing : (storing target).shown? resetVector = some (lowByte 0x8000) ∧
    (storing target).shown? (resetVector + 1) = some (highByte 0x8000) := by
  rw [shown_storing, shown_storing]
  simp [storeProgram, resetVector, lowByte, highByte]

theorem load_storeRom :
    Cartridge.load {} (storeRom target) none = .ok (.ofImage (storing target) .nrom) := by
  unfold Cartridge.load
  rw [parse_storeRom]
  rfl

end

end Image
end Nes
