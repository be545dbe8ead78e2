/-
  The effect of every instruction on registers, flags and memory.
-/
import Nes.Cpu.Arithmetic
import Nes.Cpu.Operand

namespace Nes

/-- Whether a branch is taken. Other instructions are no branches. -/
def Flags.branches (f : Flags) : Mnemonic → Bool
  | .bcc => !f.carry
  | .bcs => f.carry
  | .bne => !f.zero
  | .beq => f.zero
  | .bpl => !f.negative
  | .bmi => f.negative
  | .bvc => !f.overflow
  | .bvs => f.overflow
  | _ => false

namespace Machine

variable {σ : Type} [Bus σ]

/-- Changes the registers. -/
@[inline] def mapCpu (m : Machine σ) (f : Cpu → Cpu) : Machine σ := ⟨f m.cpu, m.bus⟩

/-- Changes the flags. -/
@[inline] def mapFlags (m : Machine σ) (f : Flags → Flags) : Machine σ :=
  m.mapCpu fun cpu => { cpu with flags := f cpu.flags }

/-- The value of an operand. -/
@[specialize] def load (m : Machine σ) : Operand → UInt8 × Machine σ
  | .immediate value => (value, m)
  | .address addr => m.read addr
  | .accumulator | .implied => (m.cpu.a, m)

/-- Stores into an operand. -/
@[specialize] def store (m : Machine σ) (value : UInt8) : Operand → Machine σ
  | .address addr => m.write addr value
  | .accumulator => m.mapCpu fun cpu => { cpu with a := value }
  | .immediate _ | .implied => m

/-- Loads an operand, changes it and stores it again. Gives the new value. -/
@[specialize] def modify (m : Machine σ) (operand : Operand)
    (f : Flags → UInt8 → UInt8 × Flags) : UInt8 × Machine σ :=
  let (value, m) := m.load operand
  let (value, flags) := f m.cpu.flags value
  let m := m.mapCpu fun cpu => { cpu with flags }
  (value, m.store value operand)

/-- Loads an operand and hands it to a change of the registers. -/
@[inline] def consume (m : Machine σ) (operand : Operand) (f : Cpu → UInt8 → Cpu) : Machine σ :=
  let (value, m) := m.load operand
  m.mapCpu fun cpu => f cpu value

/-- Jumps if the branch is taken. -/
@[inline] def branch (m : Machine σ) (mnemonic : Mnemonic) (operand : Operand) : Machine σ :=
  if m.cpu.flags.branches mnemonic then m.mapCpu fun cpu => { cpu with pc := operand.target }
  else m

/-- Executes one instruction on an operand. -/
@[specialize] def execute (m : Machine σ) (mnemonic : Mnemonic) (operand : Operand) :
    Machine σ :=
  match mnemonic with
  -- loads and stores
  | .lda => m.consume operand Cpu.setA
  | .ldx => m.consume operand Cpu.setX
  | .ldy => m.consume operand Cpu.setY
  | .lax => m.consume operand fun cpu value => { cpu.setA value with x := value }
  | .sta => m.store m.cpu.a operand
  | .stx => m.store m.cpu.x operand
  | .sty => m.store m.cpu.y operand
  | .sax => m.store (m.cpu.a &&& m.cpu.x) operand
  -- transfers
  | .tax => m.mapCpu fun cpu => cpu.setX cpu.a
  | .tay => m.mapCpu fun cpu => cpu.setY cpu.a
  | .tsx => m.mapCpu fun cpu => cpu.setX cpu.s
  | .txa => m.mapCpu fun cpu => cpu.setA cpu.x
  | .txs => m.mapCpu fun cpu => { cpu with s := cpu.x }
  | .tya => m.mapCpu fun cpu => cpu.setA cpu.y
  -- stack
  | .pha => m.push m.cpu.a
  | .php => m.push (m.cpu.flags.pushed true)
  | .pla =>
    let (value, m) := m.pull
    m.mapCpu fun cpu => cpu.setA value
  | .plp =>
    let (value, m) := m.pull
    m.mapCpu fun cpu => { cpu with flags := Flags.pulled value }
  -- shifts
  | .asl => (m.modify operand Flags.asl).2
  | .lsr => (m.modify operand Flags.lsr).2
  | .rol => (m.modify operand Flags.rol).2
  | .ror => (m.modify operand Flags.ror).2
  -- logic
  | .and => m.consume operand fun cpu value => cpu.setA (cpu.a &&& value)
  | .eor => m.consume operand fun cpu value => cpu.setA (cpu.a ^^^ value)
  | .ora => m.consume operand fun cpu value => cpu.setA (cpu.a ||| value)
  | .bit => m.consume operand fun cpu value =>
    { cpu with flags := { cpu.flags with
        zero := cpu.a &&& value == 0, overflow := bit value 6, negative := signBit value } }
  -- arithmetic
  | .adc => m.consume operand Cpu.add
  | .sbc => m.consume operand fun cpu value => cpu.add (~~~value)
  | .cmp => m.consume operand fun cpu value =>
    { cpu with flags := cpu.flags.compare cpu.a value }
  | .cpx => m.consume operand fun cpu value =>
    { cpu with flags := cpu.flags.compare cpu.x value }
  | .cpy => m.consume operand fun cpu value =>
    { cpu with flags := cpu.flags.compare cpu.y value }
  -- undocumented
  | .slo =>
    let (value, m) := m.modify operand Flags.asl
    m.mapCpu fun cpu => cpu.setA (cpu.a ||| value)
  | .rla =>
    let (value, m) := m.modify operand Flags.rol
    m.mapCpu fun cpu => cpu.setA (cpu.a &&& value)
  | .sre =>
    let (value, m) := m.modify operand Flags.lsr
    m.mapCpu fun cpu => cpu.setA (cpu.a ^^^ value)
  | .rra =>
    let (value, m) := m.modify operand Flags.ror
    m.mapCpu fun cpu => cpu.add value
  | .dcp =>
    let (value, m) := m.modify operand fun flags value => (value - 1, flags)
    m.mapCpu fun cpu => { cpu with flags := cpu.flags.compare cpu.a value }
  | .isc =>
    let (value, m) := m.modify operand fun flags value => (value + 1, flags)
    m.mapCpu fun cpu => cpu.add (~~~value)
  | .anc => m.consume operand fun cpu value =>
    let cpu := cpu.setA (cpu.a &&& value)
    { cpu with flags := { cpu.flags with carry := signBit cpu.a } }
  | .asr => m.consume operand fun cpu value =>
    let (shifted, flags) := cpu.flags.lsr (cpu.a &&& value)
    { cpu with a := shifted, flags }
  | .arr => m.consume operand Cpu.arr
  | .sbx => m.consume operand Cpu.sbx
  -- counting
  | .inc => (m.modify operand Flags.inc).2
  | .dec => (m.modify operand Flags.dec).2
  | .inx => m.mapCpu fun cpu => cpu.setX (cpu.x + 1)
  | .iny => m.mapCpu fun cpu => cpu.setY (cpu.y + 1)
  | .dex => m.mapCpu fun cpu => cpu.setX (cpu.x - 1)
  | .dey => m.mapCpu fun cpu => cpu.setY (cpu.y - 1)
  -- jumps
  | .brk =>
    -- the byte behind the opcode is skipped; the handler is entered at the next boundary
    m.mapCpu fun cpu => { cpu with pc := cpu.pc + 1 }.request .brk
  | .jmp => m.mapCpu fun cpu => { cpu with pc := operand.target }
  | .jsr =>
    let m := m.pushWord (m.cpu.pc - 1)
    m.mapCpu fun cpu => { cpu with pc := operand.target }
  | .rts =>
    let (addr, m) := m.pullWord
    m.mapCpu fun cpu => { cpu with pc := addr + 1 }
  | .rti =>
    let (status, m) := m.pull
    let m := m.mapCpu fun cpu => { cpu with flags := Flags.pulled status }
    let (addr, m) := m.pullWord
    m.mapCpu fun cpu => { cpu with pc := addr }
  -- branches
  | .bcc | .bcs | .bne | .beq | .bpl | .bmi | .bvc | .bvs => m.branch mnemonic operand
  -- flags
  | .clc => m.mapFlags fun f => { f with carry := false }
  | .cld => m.mapFlags fun f => { f with decimal := false }
  | .cli => m.mapFlags fun f => { f with interrupt := false }
  | .clv => m.mapFlags fun f => { f with overflow := false }
  | .sec => m.mapFlags fun f => { f with carry := true }
  | .sed => m.mapFlags fun f => { f with decimal := true }
  | .sei => m.mapFlags fun f => { f with interrupt := true }
  -- an operand in memory is read even if nothing is done with it
  | .nop =>
    match operand with
    | .address addr => (m.read addr).2
    | _ => m
  | .jam | .las | .sha | .shx | .shy | .shs | .xaa => m

end Machine
end Nes
