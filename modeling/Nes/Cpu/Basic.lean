/-
  The CPU's registers and its accesses to the bus.
-/
import Nes.Cpu.Bus
import Nes.Cpu.Flags

namespace Nes

/-- The ways to start over. -/
inductive ResetKind
  /-- Power-on: everything is cleared. -/
  | power
  /-- The reset button: what the hardware keeps is kept. -/
  | soft
deriving DecidableEq, Inhabited

/-- An interrupt that waits for the next instruction boundary. -/
inductive Interrupt
  | none
  | irq
  | brk
  | nmi
  | reset
deriving DecidableEq, Inhabited

/-- Of two requests the one of higher priority wins. -/
def Interrupt.priority : Interrupt → Nat
  | none => 0
  | irq => 1
  | brk => 2
  | nmi => 3
  | reset => 4

/-- First address of the stack page. -/
def stackPage : UInt16 := 0x0100

/-- Where the addresses of the handlers are found. -/
def nmiVector : UInt16 := 0xFFFA

@[inherit_doc nmiVector] def resetVector : UInt16 := 0xFFFC

@[inherit_doc nmiVector] def irqVector : UInt16 := 0xFFFE

/-- Cycles of one scanline. -/
def lineCycles : Nat := 114

/-- Cost of entering an interrupt handler. -/
def interruptCycles : Nat := 7

/-- Cost of an opcode that is not emulated. -/
def unsupportedCycles : Nat := 20

/-- The processor. -/
structure Cpu where
  a : UInt8 := 0
  x : UInt8 := 0
  y : UInt8 := 0
  s : UInt8 := 0xFF
  flags : Flags := {}
  pc : UInt16 := 0
  pending : Interrupt := .none
  /-- Cycles used up in this scanline; a surplus is carried into the next one. -/
  cycles : Nat := 0
  /-- The scanline that is run, for diagnostics. -/
  line : UInt16 := 0
  /-- Unsupported opcodes that were already met. -/
  reported : List UInt8 := []
deriving DecidableEq, Inhabited

namespace Cpu

/-- Requests an interrupt; one of higher priority that already waits stays. -/
def request (cpu : Cpu) (kind : Interrupt) : Cpu :=
  if cpu.pending.priority < kind.priority then { cpu with pending := kind } else cpu

end Cpu

/-- A CPU and the bus it is wired to. -/
structure Machine (σ : Type) where
  cpu : Cpu
  bus : σ

namespace Machine

variable {σ : Type} [Bus σ]

/-- Reads a byte from the bus. -/
@[inline] def read (m : Machine σ) (addr : UInt16) : UInt8 × Machine σ :=
  let (value, bus) := Bus.read m.bus addr
  (value, ⟨m.cpu, bus⟩)

/-- Writes a byte to the bus. -/
@[inline] def write (m : Machine σ) (addr : UInt16) (value : UInt8) : Machine σ :=
  ⟨m.cpu, Bus.write m.bus addr value⟩

/-- Reads a word, low byte first. -/
@[specialize] def readWord (m : Machine σ) (addr : UInt16) : UInt16 × Machine σ :=
  let (lo, m) := m.read addr
  let (hi, m) := m.read (addr + 1)
  (word lo hi, m)

/-- Reads a word in the zero page; the high byte wraps inside the page. -/
@[specialize] def readZeroPageWord (m : Machine σ) (pointer : UInt8) : UInt16 × Machine σ :=
  let (lo, m) := m.read pointer.toUInt16
  let (hi, m) := m.read (pointer + 1).toUInt16
  (word lo hi, m)

/-- Reads the byte at the program counter and moves past it. -/
@[specialize] def fetch (m : Machine σ) : UInt8 × Machine σ :=
  let (value, m) := m.read m.cpu.pc
  (value, { m with cpu := { m.cpu with pc := m.cpu.pc + 1 } })

/-- Fetches a word, low byte first. -/
@[specialize] def fetchWord (m : Machine σ) : UInt16 × Machine σ :=
  let (lo, m) := m.fetch
  let (hi, m) := m.fetch
  (word lo hi, m)

/-- Pushes a byte; the stack pointer wraps inside the stack page. -/
@[specialize] def push (m : Machine σ) (value : UInt8) : Machine σ :=
  let m := m.write (stackPage + m.cpu.s.toUInt16) value
  { m with cpu := { m.cpu with s := m.cpu.s - 1 } }

/-- Pulls a byte. -/
@[specialize] def pull (m : Machine σ) : UInt8 × Machine σ :=
  let s := m.cpu.s + 1
  let m := { m with cpu := { m.cpu with s } }
  m.read (stackPage + s.toUInt16)

/-- Pushes a word, high byte first. -/
@[specialize] def pushWord (m : Machine σ) (w : UInt16) : Machine σ :=
  (m.push (highByte w)).push (lowByte w)

/-- Pulls a word, low byte first. -/
@[specialize] def pullWord (m : Machine σ) : UInt16 × Machine σ :=
  let (lo, m) := m.pull
  let (hi, m) := m.pull
  (word lo hi, m)

/-- Starts over. Power-on clears the registers; the reset button keeps them and moves the
    stack pointer down by three. Both load the program counter from the reset vector. -/
@[specialize] def reset (m : Machine σ) (kind : ResetKind) : Machine σ :=
  let cpu : Cpu := match kind with
    | .power => { line := m.cpu.line }
    | .soft => { m.cpu with s := m.cpu.s - 3 }
  let (pc, m) := m.readWord resetVector
  { m with cpu := { cpu with
      flags := { cpu.flags with interrupt := true }, pc, cycles := 0, pending := .none } }

end Machine
end Nes
