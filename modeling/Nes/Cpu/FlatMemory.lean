/-
  A bus with nothing but 64 KiB of RAM, and a bus that keeps a record of all accesses.
-/
import Nes.Bytes
import Nes.Cpu.Bus

namespace Nes

/-- RAM at every address, and lines that are set from outside. -/
structure FlatMemory where
  cells : Vector UInt8 0x10000 := Vector.replicate 0x10000 0
  /-- Latched NMI edge. -/
  nmi : Bool := false
  /-- Level of the IRQ line. -/
  irq : Bool := false
  /-- Cycles to wait for. -/
  stall : Nat := 0

namespace FlatMemory

/-- The byte at an address. -/
@[inline] def peek (memory : FlatMemory) (addr : UInt16) : UInt8 :=
  have h : addr.toNat < 0x10000 := addr.toNat_lt
  memory.cells[addr.toNat]

/-- Stores a byte at an address. -/
@[inline] def poke (memory : FlatMemory) (addr : UInt16) (value : UInt8) : FlatMemory :=
  { memory with cells := memory.cells.set addr.toNat value addr.toNat_lt }

theorem peek_poke (memory : FlatMemory) (addr : UInt16) (value : UInt8) :
    (memory.poke addr value).peek addr = value := by
  unfold peek poke
  exact Vector.getElem_set_self _

theorem peek_poke_of_ne (memory : FlatMemory) {addr other : UInt16} (h : other ≠ addr)
    (value : UInt8) : (memory.poke addr value).peek other = memory.peek other := by
  unfold peek poke
  exact Vector.getElem_set_ne addr.toNat_lt other.toNat_lt
    fun heq => h (UInt16.toNat_inj.mp heq.symm)

/-- Memory that was never written is zero. -/
theorem peek_default (addr : UInt16) : ({} : FlatMemory).peek addr = 0 :=
  Vector.getElem_replicate _

/-- Stores bytes from an address on; past the last address they go on at the first. -/
def pokeAll (memory : FlatMemory) (addr : UInt16) (bytes : Bytes) : FlatMemory :=
  (bytes.foldl (fun (memory, addr) b => (memory.poke addr b, addr + 1)) (memory, addr)).1

end FlatMemory

instance : Bus FlatMemory where
  read memory addr := (memory.peek addr, memory)
  write memory addr value := memory.poke addr value
  takeNmi memory := (memory.nmi, { memory with nmi := false })
  irq memory := memory.irq
  takeStall memory := (memory.stall, { memory with stall := 0 })

/-- One access to a bus. -/
inductive Access
  | read (addr : UInt16) (value : UInt8)
  | write (addr : UInt16) (value : UInt8)
deriving DecidableEq

/-- A bus and the accesses to it, the latest first. -/
structure Recorded (σ : Type) where
  bus : σ
  accesses : List Access := []

instance {σ : Type} [Bus σ] : Bus (Recorded σ) where
  read r addr :=
    let (value, bus) := Bus.read r.bus addr
    (value, ⟨bus, .read addr value :: r.accesses⟩)
  write r addr value := ⟨Bus.write r.bus addr value, .write addr value :: r.accesses⟩
  takeNmi r :=
    let (nmi, bus) := Bus.takeNmi r.bus
    (nmi, { r with bus })
  irq r := Bus.irq r.bus
  takeStall r :=
    let (stall, bus) := Bus.takeStall r.bus
    (stall, { r with bus })

end Nes
