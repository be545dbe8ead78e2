/-
  One frame, line by line: on each line first the PPU draws, then the CPU runs. The APU gives
  four slices of sound per frame.
-/
import Nes.Console.System
import Nes.Cpu.Step
import Nes.Ppu.Render

namespace Nes

/-- The lines after which the APU gives a slice. -/
def sliceLines : List Nat := [0, 66, 131, 197]

/-- A frame while it is emulated. -/
structure Scan where
  machine : Machine System
  /-- What is drawn so far, if anything is. -/
  picture : Option Picture
  sound : Bytes := #[]

namespace Scan

/-- The PPU's and the board's share of a line. -/
def draw (scan : Scan) (line : Nat) : Scan :=
  let ⟨⟨cpu, system⟩, picture, sound⟩ := scan
  let system := if line = vblankLine then system.vblank else system
  let system := (system.mapPpu (·.preRender line)).preLine line
  let (picture, system) := system.askPpu (·.renderScanline line picture)
  ⟨⟨cpu, system.hblank line⟩, picture, sound⟩

/-- The CPU's share of a line. -/
def compute (scan : Scan) (line : Nat) : Scan :=
  let ⟨machine, picture, sound⟩ := scan
  ⟨machine.runLine (UInt16.ofNat line), picture, sound⟩

/-- Takes a slice of sound. -/
def listen (scan : Scan) : Scan :=
  let ⟨⟨cpu, ⟨⟨map, workRam, ppu, apu, io⟩, cartridge, journal⟩⟩, picture, sound⟩ := scan
  let played := apu.slice (peekMemory map workRam cartridge)
  ⟨⟨cpu, ⟨⟨map, workRam, ppu, played.2, io⟩, cartridge, journal⟩⟩, picture,
    sound ++ played.1.samples⟩

/-- One line. -/
def line (scan : Scan) (line : Nat) : Scan :=
  let scan := (scan.draw line).compute line
  if line ∈ sliceLines then scan.listen else scan

/-- A whole frame. -/
def frame (scan : Scan) : Scan := (List.range frameLines).foldl Scan.line scan

end Scan
end Nes
