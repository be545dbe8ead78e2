/-
  The picture processing unit as the CPU sees it: its state and its registers.
-/
import Nes.Cpu.Basic
import Nes.Ppu.Color
import Nes.Ppu.Memory
import Nes.Ppu.Scroll

namespace Nes

/-- Columns of the picture. -/
def screenWidth : Nat := 256

/-- Rows of the picture; a television does not show the first and last eight lines. -/
def screenHeight : Nat := 224

/-- The first line that is shown. -/
def firstShownLine : Nat := 8

/-- Lines on which something is drawn. -/
def visibleLines : Nat := 240

/-- The line on which the vertical blank starts. -/
def vblankLine : Nat := 241

/-- The line before the first visible one. -/
def preRenderLine : Nat := 261

/-- Lines of a frame. -/
def frameLines : Nat := 262

/-- One pixel of a sprite. -/
structure SpriteDot where
  /-- Palette number and colour, `palette * 4 + colour`. -/
  entry : UInt8
  /-- The background is drawn over the dot. -/
  behind : Bool
  /-- The dot belongs to the first sprite. -/
  first : Bool
deriving DecidableEq, Inhabited

/-- The sprite pixels of the next line. -/
structure SpriteLine where
  cells : Vector (Option SpriteDot) 256 := Vector.replicate 256 none
  /-- The first sprite has a pixel among them. -/
  hasFirst : Bool := false

instance : Inhabited SpriteLine := ⟨{}⟩

/-- The picture processing unit. -/
structure Ppu where
  control : Control := {}
  mask : Mask := {}
  status : PpuStatus := {}
  oamAddress : UInt8 := 0
  scroll : Scroll := {}
  /-- What the next read of $2007 gives. -/
  readBuffer : UInt8 := 0
  /-- The last byte written to any register; registers that cannot be read give it back. -/
  latch : UInt8 := 0
  memory : VideoMemory := {}
  /-- The 64 sprites, four bytes each. -/
  oam : Vector UInt8 256 := Vector.replicate 256 0
  sprites : SpriteLine := {}
  colors : ColorTable := {}
  /-- An NMI edge that the CPU has not seen yet. -/
  nmiLatch : Bool := false
  /-- The pattern tables are RAM. -/
  chrWritable : Bool := true

namespace Ppu

instance : Inhabited Ppu := ⟨{}⟩

/-- Starts over. The reset button clears the registers and keeps every memory. -/
def reset (ppu : Ppu) : ResetKind → Ppu
  | .power => {}
  | .soft => {
      memory := ppu.memory
      oam := ppu.oam
      colors := ppu.colors.update {}
      chrWritable := ppu.chrWritable }

@[inline] def mirroring (ppu : Ppu) : Mirroring := ppu.memory.mirroring

@[inline] def setMirroring (ppu : Ppu) (mirroring : Mirroring) : Ppu :=
  { ppu with memory := ppu.memory.setMirroring mirroring }

/-- Switches the nametables by number; unknown numbers change nothing. -/
def setMirroringCode (ppu : Ppu) (code : UInt8) : Ppu :=
  match Mirroring.ofCode? code with
  | some mirroring => ppu.setMirroring mirroring
  | none => ppu

/-- Whether background or sprites are drawn. -/
@[inline] def rendering (ppu : Ppu) : Bool := ppu.mask.rendering

@[inline] def inVblank (ppu : Ppu) : Bool := ppu.status.vblank

/-- Takes the NMI edge. -/
@[inline] def takeNmi (ppu : Ppu) : Bool × Ppu := (ppu.nmiLatch, { ppu with nmiLatch := false })

/-! ## Memories -/

@[inline] def readByte (ppu : Ppu) (addr : Nat) : UInt8 := ppu.memory.read addr

@[inline] def writeByte (ppu : Ppu) (addr : Nat) (value : UInt8) : Ppu :=
  { ppu with memory := ppu.memory.write addr value }

@[inline] def readBlock (ppu : Ppu) (addr size : Nat) : Bytes := ppu.memory.readBlock addr size

@[inline] def writeBlock (ppu : Ppu) (addr : Nat) (data : Bytes) : Ppu :=
  { ppu with memory := ppu.memory.writeBlock addr data }

@[inline] def oamRead (ppu : Ppu) (i : UInt8) : UInt8 :=
  have h : i.toNat < 256 := i.toNat_lt
  ppu.oam[i.toNat]

@[inline] def oamWrite (ppu : Ppu) (i : UInt8) (value : UInt8) : Ppu :=
  { ppu with oam := ppu.oam.set i.toNat value i.toNat_lt }

/-- Writes the bytes of `data` from `offset` on into sprite memory, which wraps after 256
    bytes. -/
def oamWriteFrom (ppu : Ppu) (start : UInt8) (data : List UInt8) : Ppu :=
  match data with
  | [] => ppu
  | value :: rest => (ppu.oamWrite start value).oamWriteFrom (start + 1) rest

/-- Writes a block into sprite memory. -/
def oamWriteBlock (ppu : Ppu) (start : UInt8) (data : Bytes) : Ppu :=
  ppu.oamWriteFrom start data.toList

/-! ## Registers -/

/-- Moves on after an access to $2007. -/
def advanceData (ppu : Ppu) : Ppu :=
  { ppu with scroll := { ppu.scroll with v := ppu.scroll.v.advance ppu.control.step } }

/-- A write to $2000. Switching the NMI on during the vertical blank raises one at once. -/
def writeControl (ppu : Ppu) (value : UInt8) : Ppu :=
  let control := Control.ofByte value
  let t := { ppu.scroll.t with tableX := bit value 0, tableY := bit value 1 }
  let edge := !ppu.control.nmi && control.nmi && ppu.status.vblank
  { ppu with control, scroll := { ppu.scroll with t }, nmiLatch := ppu.nmiLatch || edge }

/-- A write to $2001. -/
def writeMask (ppu : Ppu) (value : UInt8) : Ppu :=
  let mask := Mask.ofByte value
  { ppu with mask, colors := ppu.colors.update mask.emphasis }

/-- A write to $2007. CHR ROM cannot be written. -/
def writeData (ppu : Ppu) (value : UInt8) : Ppu :=
  let addr := ppu.scroll.v.toNat % 0x4000
  let ppu := if ppu.chrWritable || 0x2000 ≤ addr then ppu.writeByte addr value else ppu
  ppu.advanceData

/-- A write to one of the registers. -/
def writeRegister (ppu : Ppu) (register : PpuRegister) (value : UInt8) : Ppu :=
  let ppu := { ppu with latch := value }
  match register with
  | .control => ppu.writeControl value
  | .mask => ppu.writeMask value
  | .status => ppu
  | .oamAddress => { ppu with oamAddress := value }
  | .oamData =>
    let i := ppu.oamAddress
    { ppu.oamWrite i value with oamAddress := i + 1 }
  | .scroll => { ppu with scroll := ppu.scroll.writeScroll value }
  | .address => { ppu with scroll := ppu.scroll.writeAddress value }
  | .data => ppu.writeData value

/-- A read of $2002. It ends the vertical blank flag and any half-written pair. -/
def readStatus (ppu : Ppu) : UInt8 × Ppu :=
  (ppu.status.toByte ppu.latch,
    { ppu with
      status := { ppu.status with vblank := false }
      scroll := { ppu.scroll with second := false } })

/-- A read of $2007. Below the palette it gives the byte that the read before it found; in the
    palette it is immediate, and the nametable byte underneath is kept for the next read. -/
def readData (ppu : Ppu) : UInt8 × Ppu :=
  let addr := ppu.scroll.v.toNat % 0x4000
  if 0x3F00 ≤ addr then
    (ppu.readByte addr, { ppu with readBuffer := ppu.readByte (addr - 0x1000) }.advanceData)
  else
    (ppu.readBuffer, { ppu with readBuffer := ppu.readByte addr }.advanceData)

/-- A read of one of the registers. -/
def readRegister (ppu : Ppu) (register : PpuRegister) : UInt8 × Ppu :=
  match register with
  | .status => ppu.readStatus
  | .oamData => (ppu.oamRead ppu.oamAddress, ppu)
  | .data => ppu.readData
  | _ => (ppu.latch, ppu)

end Ppu
end Nes
