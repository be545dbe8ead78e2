/-
  Instruction boundaries: interrupts, single steps and the steps of one scanline.
-/
import Nes.Cpu.Execute

namespace Nes

/-- What happens at an instruction boundary. -/
inductive Action
  /-- The reset button. -/
  | reset
  /-- Entering the handler behind a vector; `brk` is the pushed B bit. -/
  | interrupt (vector : UInt16) (brk : Bool) (cycles : Nat)
  /-- Skipping an opcode that is not emulated. -/
  | skip (pc : UInt16) (opcode : UInt8)
  /-- Executing the instruction that was fetched from `pc`. -/
  | execute (pc : UInt16) (opcode : UInt8) (instruction : Instruction) (operand : Operand)
      (crossed : Bool)

/-- The interrupt that is serviced now. IRQ and BRK wait while interrupts are disabled. The
    BRK instruction has already paid for entering its handler. -/
def Cpu.due (cpu : Cpu) : Option Action :=
  match cpu.pending with
  | .none => none
  | .reset => some .reset
  | .nmi => some (.interrupt nmiVector false interruptCycles)
  | .irq => if cpu.flags.interrupt then none else some (.interrupt irqVector false interruptCycles)
  | .brk => if cpu.flags.interrupt then none else some (.interrupt irqVector true 0)

namespace Machine

variable {σ : Type} [Bus σ]

/-- Asks the interrupt sources. An NMI is an edge and is latched; an IRQ is a level, and a
    pending one is withdrawn when the line is released. -/
@[specialize] def poll (m : Machine σ) : Machine σ :=
  let (nmi, bus) := Bus.takeNmi m.bus
  let cpu := if nmi then m.cpu.request .nmi else m.cpu
  let cpu :=
    if Bus.irq bus then cpu.request .irq
    else if cpu.pending = .irq then { cpu with pending := .none }
    else cpu
  ⟨cpu, bus⟩

/-- Finds out what to do next: an interrupt that is due, or else the next instruction, which
    is fetched together with its operand. -/
@[specialize] def next (m : Machine σ) : Action × Machine σ :=
  let m := m.poll
  match m.cpu.due with
  | some action => (action, m)
  | none =>
    let pc := m.cpu.pc
    let (opcode, m) := m.fetch
    let instruction := Instruction.decode opcode
    if instruction.mnemonic.supported then
      let ((operand, crossed), m) := m.operand instruction.mode
      (.execute pc opcode instruction operand crossed, m)
    else (.skip pc opcode, m)

/-- Enters an interrupt handler. -/
@[specialize] def enter (m : Machine σ) (vector : UInt16) (brk : Bool) : Machine σ :=
  let m := m.pushWord m.cpu.pc
  let m := m.push (m.cpu.flags.pushed brk)
  let (pc, m) := m.readWord vector
  m.mapCpu fun cpu =>
    { cpu with pc, flags := { cpu.flags with interrupt := true }, pending := .none }

/-- Does what was found to be next; gives the cycles it took. -/
@[specialize] def perform (m : Machine σ) : Action → Nat × Machine σ
  | .reset => (interruptCycles, m.reset .soft)
  | .interrupt vector brk cycles => (cycles, m.enter vector brk)
  | .skip _ opcode =>
    (unsupportedCycles, m.mapCpu fun cpu => { cpu with reported := cpu.reported.insert opcode })
  | .execute _ _ instruction operand crossed =>
    let taken := m.cpu.flags.branches instruction.mnemonic
    (instruction.timing.cost crossed taken, m.execute instruction.mnemonic operand)

/-- Services an interrupt or executes one instruction; gives the cycles it took. -/
@[specialize] def step (m : Machine σ) : Nat × Machine σ :=
  let (action, m) := m.next
  m.perform action

/-- Counts what a step took, with the cycles the bus makes the CPU wait. -/
@[specialize] def charge (m : Machine σ) (spent : Nat) : Machine σ :=
  let (stall, bus) := Bus.takeStall m.bus
  ⟨{ m.cpu with cycles := m.cpu.cycles + spent + stall }, bus⟩

/-- Steps until the cycles of a scanline are used up, at most `fuel` times. -/
@[specialize] def spend (m : Machine σ) : (fuel : Nat) → Machine σ
  | 0 => m
  | fuel + 1 =>
    if m.cpu.cycles < lineCycles then
      let (spent, m) := m.step
      spend (m.charge spent) fuel
    else m

/-- Steps that are always enough for one scanline: only entering a BRK handler is free, and
    every other step takes at least two cycles. -/
def lineSteps : Nat := 115

/-- Notes the scanline that is run. -/
@[inline] def beginLine (m : Machine σ) (line : UInt16) : Machine σ :=
  m.mapCpu fun cpu => { cpu with line }

/-- Takes the cycles of one scanline off; the surplus stays. -/
@[inline] def endLine (m : Machine σ) : Machine σ :=
  m.mapCpu fun cpu => { cpu with cycles := cpu.cycles - lineCycles }

/-- Runs the CPU for one scanline. -/
@[specialize] def runLine (m : Machine σ) (line : UInt16) : Machine σ :=
  ((m.beginLine line).spend lineSteps).endLine

end Machine
end Nes
