/-
  The PPU's address space of 14 bits: pattern tables, nametables and the palette.

  Every address denotes one physical cell. Reads and writes go through that cell, so two
  addresses share a byte exactly when they denote the same one.
-/
import Nes.Bytes
import Nes.Mirroring
import Nes.Word

namespace Nes

/-- A byte of video memory. -/
inductive VideoCell
  | pattern (i : Fin 0x2000)
  | name (i : Fin 0x1000)
  | palette (i : Fin 32)
deriving DecidableEq

/-- Video memory. -/
structure VideoMemory where
  /-- Both pattern tables. -/
  patterns : Vector UInt8 0x2000 := Vector.replicate 0x2000 0
  /-- Four physical nametables. -/
  names : Vector UInt8 0x1000 := Vector.replicate 0x1000 0
  palette : Vector UInt8 32 := Vector.replicate 32 0
  mirroring : Mirroring := .horizontal
  /-- The physical table behind each logical one. -/
  layout : Vector (Fin 4) 4 := Mirroring.horizontal.layout

namespace VideoMemory

instance : Inhabited VideoMemory := ⟨{}⟩

/-- Switches the nametables. -/
def setMirroring (m : VideoMemory) (mirroring : Mirroring) : VideoMemory :=
  { m with mirroring, layout := mirroring.layout }

/-- The palette has 32 entries; the backdrops of the sprite palettes are those of the
    background palettes. -/
def paletteIndex (addr : Nat) : Fin 32 :=
  if addr % 4 = 0 then wrap (addr % 16) else wrap addr

/-- The nametable cell of an address from $2000 on. -/
@[inline] def nameIndex (layout : Vector (Fin 4) 4) (addr : Nat) : Fin 0x1000 :=
  wrap ((layout.get (wrap (addr / 0x400))).val * 0x400 + addr % 0x400)

/-- The cell that an address denotes. -/
@[inline] def cell (m : VideoMemory) (addr : Nat) : VideoCell :=
  let a := addr % 0x4000
  if h : a < 0x2000 then .pattern ⟨a, h⟩
  else if a < 0x3F00 then .name (nameIndex m.layout a)
  else .palette (paletteIndex a)

/-- The byte at an address. -/
def read (m : VideoMemory) (addr : Nat) : UInt8 :=
  match m.cell addr with
  | .pattern i => m.patterns.get i
  | .name i => m.names.get i
  | .palette i => m.palette.get i

/-- Stores a byte at an address; the palette holds six bits. -/
def write (m : VideoMemory) (addr : Nat) (value : UInt8) : VideoMemory :=
  match m.cell addr with
  | .pattern i => { m with patterns := m.patterns.set i value }
  | .name i => { m with names := m.names.set i value }
  | .palette i => { m with palette := m.palette.set i (value &&& 0x3F) }

/-- How many of `wanted` bytes from an address on lie side by side in one table. -/
def runLength (addr wanted : Nat) : Nat :=
  if addr < 0x2000 then min wanted (0x2000 - addr)
  else if addr < 0x3F00 then min wanted (min (0x400 - addr % 0x400) (0x3F00 - addr))
  else 1

theorem runLength_pos (addr : Nat) {wanted : Nat} (h : 0 < wanted) :
    0 < runLength addr wanted := by
  unfold runLength
  split
  · omega
  · split <;> omega

/-- Stores a run of bytes that lie side by side, from `data[offset]` on. -/
def writeRun (m : VideoMemory) (addr : Nat) (data : Bytes) (offset count : Nat) : VideoMemory :=
  match m.cell addr with
  | .pattern i => { m with patterns := copyInto m.patterns i data offset count }
  | .name i => { m with names := copyInto m.names i data offset count }
  | .palette _ => m.write addr (data.getD offset 0)

/-- Stores the bytes of `data` from `offset` on, run by run. -/
def writeRuns (m : VideoMemory) (addr : Nat) (data : Bytes) (offset : Nat) : VideoMemory :=
  if h : offset < data.size then
    let count := runLength (addr % 0x4000) (data.size - offset)
    have : 0 < runLength (addr % 0x4000) (data.size - offset) := runLength_pos _ (by omega)
    writeRuns (m.writeRun addr data offset count) (addr % 0x4000 + count) data (offset + count)
  else m
termination_by data.size - offset

/-- Stores a block of bytes from an address on; past the last address it goes on at the
    first. -/
def writeBlock (m : VideoMemory) (addr : Nat) (data : Bytes) : VideoMemory :=
  m.writeRuns addr data 0

/-- Appends a run of bytes that lie side by side. -/
def readRun (m : VideoMemory) (addr count : Nat) (out : Bytes) : Bytes :=
  match m.cell addr with
  | .pattern i => out ++ m.patterns.toArray.extract i (i + count)
  | .name i => out ++ m.names.toArray.extract i (i + count)
  | .palette i => out.push (m.palette.get i)

/-- Appends `wanted` bytes from an address on, run by run. -/
def readRuns (m : VideoMemory) (addr wanted : Nat) (out : Bytes) : Bytes :=
  if h : 0 < wanted then
    let count := runLength (addr % 0x4000) wanted
    have : 0 < runLength (addr % 0x4000) wanted := runLength_pos _ h
    readRuns m (addr % 0x4000 + count) (wanted - count) (m.readRun addr count out)
  else out
termination_by wanted

/-- Reads a block of `size` bytes from an address on. -/
def readBlock (m : VideoMemory) (addr size : Nat) : Bytes := m.readRuns addr size #[]

end VideoMemory
end Nes
