/-
  The CPU address space as an ordered list of windows.

  The windows of a map cover the space from $0000 to $FFFF without gaps or overlaps.
  Installing a new one cuts away whatever it covers.
-/

namespace Nes

/-- What answers behind an address. -/
inductive Device
  /-- Nothing drives the data lines. -/
  | unmapped
  /-- The console's 2 KiB of work RAM. -/
  | workRam
  /-- The eight PPU registers. -/
  | ppu
  /-- APU registers, sprite DMA and the pads. -/
  | io
  /-- The cartridge's save RAM. -/
  | saveRam
  /-- PRG ROM; the local offset is an offset into the ROM. -/
  | prg
deriving DecidableEq, Inhabited

/-- The addresses `first` to `last`; local offsets of the device count from `base`. -/
structure Window where
  first : Nat
  last : Nat
  device : Device
  base : Nat
deriving DecidableEq, Inhabited

namespace Window

/-- Local offset of an address inside the window. -/
@[inline] def offset (w : Window) (addr : Nat) : Nat := w.base + (addr - w.first)

/-- What is left of a window below address `first`. -/
def below (w : Window) (first : Nat) : Option Window :=
  if w.first < first then some { w with last := min w.last (first - 1) } else none

/-- What is left of a window above address `last`. It still shows the same bytes of its
    device, so its base moves by what was cut off. -/
def above (w : Window) (last : Nat) : Option Window :=
  if last < w.last then
    let start := max w.first (last + 1)
    some { w with first := start, base := w.offset start }
  else none

end Window

/-- The windows in ascending order. -/
structure MemoryMap where
  windows : List Window
deriving DecidableEq, Inhabited

namespace MemoryMap

/-- Nothing is mapped anywhere. -/
def empty : MemoryMap := ⟨[{ first := 0, last := 0xFFFF, device := .unmapped, base := 0 }]⟩

/-- Installs a device from `first` to `last`. A range that ends before it starts changes
    nothing. -/
def assign (map : MemoryMap) (device : Device) (first last : UInt16) (base : Nat) : MemoryMap :=
  if last < first then map
  else
    let (lo, hi) := (first.toNat, last.toNat)
    ⟨map.windows.filterMap (·.below lo) ++ { first := lo, last := hi, device, base } ::
      map.windows.filterMap (·.above hi)⟩

/-- Finds the window of an address in a list of windows. -/
def lookup (addr : Nat) : List Window → Device × Nat
  | [] => (.unmapped, addr)
  | w :: rest => if addr ≤ w.last then (w.device, w.offset addr) else lookup addr rest

/-- The device that answers at an address, and the local offset there. -/
@[inline] def resolve (map : MemoryMap) (addr : UInt16) : Device × Nat :=
  lookup addr.toNat map.windows

/-- The console's own devices. The cartridge space stays unmapped until a board installs its
    banks. -/
def console : MemoryMap :=
  empty
    |>.assign .workRam 0x0000 0x07FF 0
    |>.assign .workRam 0x0800 0x0FFF 0
    |>.assign .workRam 0x1000 0x17FF 0
    |>.assign .workRam 0x1800 0x1FFF 0
    |>.assign .ppu 0x2000 0x3FFF 0
    |>.assign .io 0x4000 0x401F 0
    |>.assign .saveRam 0x6000 0x7FFF 0

end MemoryMap
end Nes
