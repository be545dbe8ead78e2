/-
  The CPU's view of the console: every address is decoded by the memory map, and writes to PRG
  space go to the cartridge's board.
-/
import Nes.Console.Hardware
import Nes.Cpu.Bus

namespace Nes

/-- The byte at an address for those who only look, such as the DMC. The memories answer as
    they do to the CPU; everything else reads as zero. -/
def peekMemory (map : MemoryMap) (workRam : Ram 0x800) (cartridge : Cartridge) (addr : UInt16) :
    UInt8 :=
  match map.resolve addr with
  | (.workRam, offset) => workRam.read offset
  | (.saveRam, offset) => cartridge.save.read offset
  | (.prg, offset) => (cartridge.prgByte? offset).getD 0
  | _ => 0

namespace System

/-- The byte at an address, read without effect. -/
def peek (system : System) (addr : UInt16) : UInt8 :=
  peekMemory system.hardware.map system.hardware.workRam system.cartridge addr

/-! ## The board's side -/

/-- Lets the board act on what it reaches. -/
@[inline] def onBoard (system : System) (act : Board → Image → Slot → Board × Slot) : System :=
  let ⟨⟨map, workRam, ppu, apu, io⟩, ⟨image, board, pristine, save, irq⟩, journal⟩ := system
  let (board, ⟨map, ppu, irq, journal⟩) := act board image ⟨map, ppu, irq, journal⟩
  ⟨⟨map, workRam, ppu, apu, io⟩, ⟨image, board, pristine, save, irq⟩, journal⟩

/-- Starts the board over: it is as it was built, and installs its first banks. -/
def initBoard (system : System) (kind : ResetKind) : System :=
  let ⟨⟨map, workRam, ppu, apu, io⟩, cartridge, journal⟩ := system
  let ppu := { ppu with chrWritable := cartridge.image.hasChrRam }
  let cartridge := { cartridge with board := cartridge.pristine, irq := false }
  onBoard ⟨⟨map, workRam, ppu, apu, io⟩, cartridge, journal⟩
    fun board image slot => board.init image kind slot

/-- A write into PRG space. -/
def writeBoard (system : System) (addr : UInt16) (data : UInt8) : System :=
  system.onBoard fun board image slot => board.write image addr data slot

/-- Tells the board that a line comes next. -/
def preLine (system : System) (line : Nat) : System :=
  system.onBoard fun board image slot => board.preLine image line slot

/-- Tells the board that a line is drawn. -/
def hblank (system : System) (line : Nat) : System :=
  system.onBoard fun board image slot => board.hblank image line slot

/-- Tells the board that the vertical blank starts. -/
def vblank (system : System) : System :=
  system.onBoard fun board image slot => board.vblank image slot

/-! ## Single parts -/

/-- Changes what is behind the I/O addresses. -/
@[inline] def mapIo (system : System) (f : IoBlock → IoBlock) : System :=
  let ⟨⟨map, workRam, ppu, apu, io⟩, cartridge, journal⟩ := system
  ⟨⟨map, workRam, ppu, apu, f io⟩, cartridge, journal⟩

/-- Changes the PPU. -/
@[inline] def mapPpu (system : System) (f : Ppu → Ppu) : System :=
  let ⟨⟨map, workRam, ppu, apu, io⟩, cartridge, journal⟩ := system
  ⟨⟨map, workRam, f ppu, apu, io⟩, cartridge, journal⟩

/-- Changes the APU. -/
@[inline] def mapApu (system : System) (f : Apu → Apu) : System :=
  let ⟨⟨map, workRam, ppu, apu, io⟩, cartridge, journal⟩ := system
  ⟨⟨map, workRam, ppu, f apu, io⟩, cartridge, journal⟩

/-- Changes work RAM. -/
@[inline] def mapWorkRam (system : System) (f : Ram 0x800 → Ram 0x800) : System :=
  let ⟨⟨map, workRam, ppu, apu, io⟩, cartridge, journal⟩ := system
  ⟨⟨map, f workRam, ppu, apu, io⟩, cartridge, journal⟩

/-- Changes save RAM. -/
@[inline] def mapSave (system : System) (f : SaveRam → SaveRam) : System :=
  let ⟨hardware, ⟨image, board, pristine, save, irq⟩, journal⟩ := system
  ⟨hardware, ⟨image, board, pristine, f save, irq⟩, journal⟩

/-- Asks the PPU, which may change by that. -/
@[inline] def askPpu (system : System) {A : Type} (f : Ppu → A × Ppu) : A × System :=
  let ⟨⟨map, workRam, ppu, apu, io⟩, cartridge, journal⟩ := system
  let (value, ppu) := f ppu
  (value, ⟨⟨map, workRam, ppu, apu, io⟩, cartridge, journal⟩)

/-! ## Reads and writes -/

/-- A read from the I/O addresses. -/
def readIo (system : System) (addr : UInt16) : UInt8 × System :=
  let ⟨⟨map, workRam, ppu, apu, io⟩, cartridge, journal⟩ := system
  if addr = apuStatusAddress then
    let (value, apu) := apu.readStatus
    (value, ⟨⟨map, workRam, ppu, apu, io⟩, cartridge, journal⟩)
  else if addr = pad1Address then
    let (value, pad1) := io.pad1.read
    (value, ⟨⟨map, workRam, ppu, apu, { io with pad1 }⟩, cartridge, journal⟩)
  else if addr = pad2Address then
    let (value, pad2) := io.pad2.read
    (value, ⟨⟨map, workRam, ppu, apu, { io with pad2 }⟩, cartridge, journal⟩)
  else (io.openBus, ⟨⟨map, workRam, ppu, apu, io⟩, cartridge, journal⟩)

/-- What the device behind an address answers. -/
@[inline] def access (system : System) (addr : UInt16) : UInt8 × System :=
  match system.hardware.map.resolve addr with
  | (.workRam, offset) => (system.hardware.workRam.read offset, system)
  | (.ppu, offset) => system.askPpu (·.readRegister (.ofOffset offset))
  | (.io, _) => system.readIo addr
  | (.saveRam, offset) => (system.cartridge.save.read offset, system)
  | (.prg, offset) =>
    ((system.cartridge.prgByte? offset).getD system.hardware.io.openBus, system)
  | (.unmapped, _) => (system.hardware.io.openBus, system)

/-- A read by the CPU. The byte stays on the data lines. -/
def read (system : System) (addr : UInt16) : UInt8 × System :=
  let (value, system) := system.access addr
  (value, system.mapIo (·.drive value))

/-- Reads `count` bytes as the CPU does, from an address on. -/
def readFrom (system : System) (addr : UInt16) (out : Bytes) : (count : Nat) → Bytes × System
  | 0 => (out, system)
  | count + 1 =>
    let (value, system) := system.read addr
    readFrom system (addr + 1) (out.push value) count

/-- Sprite DMA: copies a page into sprite memory, from the current sprite address on, and makes
    the CPU wait. -/
def spriteDma (system : System) (page : UInt8) : System :=
  let (bytes, system) := system.readFrom (page.toUInt16 * 256) (Array.mkEmpty 256) 256
  let system := system.mapPpu fun ppu => ppu.oamWriteBlock ppu.oamAddress bytes
  system.mapIo fun io => { io with stall := io.stall + spriteDmaCycles }

/-- A write to the I/O addresses. -/
def writeIo (system : System) (addr : UInt16) (data : UInt8) : System :=
  if addr = spriteDmaAddress then system.spriteDma data
  else if addr = pad1Address then system.mapIo (·.writeStrobe data)
  else system.mapApu (·.write addr data)

/-- A write by the CPU. Boards see those to PRG space; nobody sees one to ROM below it or to an
    unmapped address. -/
def write (system : System) (addr : UInt16) (data : UInt8) : System :=
  let system := system.mapIo (·.drive data)
  if prgSpace ≤ addr then system.writeBoard addr data
  else
    match system.hardware.map.resolve addr with
    | (.workRam, offset) => system.mapWorkRam (·.write offset data)
    | (.ppu, offset) => system.mapPpu (·.writeRegister (.ofOffset offset) data)
    | (.io, _) => system.writeIo addr data
    | (.saveRam, offset) => system.mapSave (·.write offset data)
    | (.prg, _) | (.unmapped, _) => system

/-- Takes the PPU's NMI edge. -/
def takeNmi (system : System) : Bool × System := system.askPpu (·.takeNmi)

/-- Whether the APU or the board holds the IRQ line. -/
def irq (system : System) : Bool := system.hardware.apu.irq || system.cartridge.irq

/-- Takes the cycles that the CPU has to wait. -/
def takeStall (system : System) : Nat × System :=
  let ⟨⟨map, workRam, ppu, apu, io⟩, cartridge, journal⟩ := system
  (io.stall, ⟨⟨map, workRam, ppu, apu, { io with stall := 0 }⟩, cartridge, journal⟩)

end System

instance : Bus System where
  read := System.read
  write := System.write
  takeNmi := System.takeNmi
  irq := System.irq
  takeStall := System.takeStall

end Nes
