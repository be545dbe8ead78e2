/-
  The undocumented instructions that do two things at once.

  Six of them change a byte in memory and then work on its new value, as one documented instruction
  after another would. The second of the two loads the byte again, so the two agree at an address
  that gives back what was stored in it (`IsCell`); at a device register they need not. At a cell
  the second load finds what the first instruction stored (`consume_modify`), and what is left is
  that DCP and ISC skip flags which their second half sets anyway (`consume_modify_of_lost`). LAX
  loads one byte twice (`consume_consume`), and with an immediate operand there is no memory to
  agree on.

  In flat RAM every address is a cell (`isCell_flat`). There the combined instruction and its two
  halves leave the same machine, registers, flags and memory (`combined_eq_halves`).
-/
import Nes.Cpu.Execute
import Nes.Cpu.FlatMemory

namespace Nes

/-! ## Cells -/

/-- An address gives back what was stored in it, and reading it changes nothing. -/
structure IsCell {σ : Type} [Bus σ] (bus : σ) (addr : UInt16) : Prop where
  read : (Bus.read bus addr).2 = bus
  read_write : ∀ value, Bus.read (Bus.write bus addr value) addr = (value, Bus.write bus addr value)

theorem isCell_flat (memory : FlatMemory) (addr : UInt16) : IsCell memory addr where
  read := rfl
  read_write value := congrArg (·, memory.poke addr value) (memory.peek_poke addr value)

namespace Machine

section
variable {σ : Type} [Bus σ] {m : Machine σ} {addr : UInt16}

theorem load_cell (cell : IsCell m.bus addr) :
    m.load (.address addr) = ((Bus.read m.bus addr).1, m) := by
  show ((Bus.read m.bus addr).1, Machine.mk m.cpu (Bus.read m.bus addr).2) = _
  rw [cell.read]

/-- A change in place stores the new value. -/
theorem modify_cell (cell : IsCell m.bus addr) (f : Flags → UInt8 → UInt8 × Flags) :
    m.modify (.address addr) f =
      let (value, flags) := f m.cpu.flags (Bus.read m.bus addr).1
      (value, ⟨{ m.cpu with flags }, Bus.write m.bus addr value⟩) := by
  unfold modify
  rw [load_cell cell]
  rfl

/-- What comes after a change in place finds the new value. -/
theorem consume_modify (cell : IsCell m.bus addr) (f : Flags → UInt8 → UInt8 × Flags)
    (g : Cpu → UInt8 → Cpu) :
    (m.modify (.address addr) f).2.consume (.address addr) g =
      (m.modify (.address addr) f).2.mapCpu fun cpu => g cpu (m.modify (.address addr) f).1 := by
  rw [modify_cell cell]
  unfold consume load read
  dsimp only
  rw [cell.read_write]

/-- Flags that what comes next sets anyway need not be set by the change. -/
theorem consume_modify_of_lost (cell : IsCell m.bus addr) {f : Flags → UInt8 → UInt8 × Flags}
    {g : Cpu → UInt8 → Cpu}
    (lost : ∀ flags value changed, g { m.cpu with flags := (f flags value).2 } changed =
      g { m.cpu with flags } changed) :
    (m.modify (.address addr) f).2.consume (.address addr) g =
      let changed := m.modify (.address addr) fun flags value => ((f flags value).1, flags)
      changed.2.mapCpu fun cpu => g cpu changed.1 := by
  rw [consume_modify cell, modify_cell cell, modify_cell cell]
  exact congrArg (Machine.mk · _) (lost _ _ _)

theorem consume_cell (cell : IsCell m.bus addr) (f : Cpu → UInt8 → Cpu) :
    m.consume (.address addr) f = m.mapCpu fun cpu => f cpu (Bus.read m.bus addr).1 := by
  unfold consume
  rw [load_cell cell]

/-- Two loads of one cell find the same value. -/
theorem consume_consume (cell : IsCell m.bus addr) (f g : Cpu → UInt8 → Cpu) :
    (m.consume (.address addr) f).consume (.address addr) g =
      m.consume (.address addr) fun cpu value => g (f cpu value) value := by
  have later : IsCell (m.mapCpu fun cpu => f cpu (Bus.read m.bus addr).1).bus addr := cell
  rw [consume_cell cell, consume_cell later, consume_cell cell]
  rfl

/-! ## The combined instructions at a cell -/

theorem execute_slo (cell : IsCell m.bus addr) :
    (m.execute .asl (.address addr)).execute .ora (.address addr) =
      m.execute .slo (.address addr) :=
  consume_modify cell Flags.asl fun cpu value => cpu.setA (cpu.a ||| value)

theorem execute_rla (cell : IsCell m.bus addr) :
    (m.execute .rol (.address addr)).execute .and (.address addr) =
      m.execute .rla (.address addr) :=
  consume_modify cell Flags.rol fun cpu value => cpu.setA (cpu.a &&& value)

theorem execute_sre (cell : IsCell m.bus addr) :
    (m.execute .lsr (.address addr)).execute .eor (.address addr) =
      m.execute .sre (.address addr) :=
  consume_modify cell Flags.lsr fun cpu value => cpu.setA (cpu.a ^^^ value)

/-- The addition takes the bit that the rotation moved into the carry. -/
theorem execute_rra (cell : IsCell m.bus addr) :
    (m.execute .ror (.address addr)).execute .adc (.address addr) =
      m.execute .rra (.address addr) :=
  consume_modify cell Flags.ror Cpu.add

/-- The zero and negative flags of the decrement are lost in the comparison. -/
theorem execute_dcp (cell : IsCell m.bus addr) :
    (m.execute .dec (.address addr)).execute .cmp (.address addr) =
      m.execute .dcp (.address addr) := by
  let compareA (cpu : Cpu) (value : UInt8) : Cpu :=
    { cpu with flags := cpu.flags.compare cpu.a value }
  have lost (flags : Flags) (value compared : UInt8) :
      compareA { m.cpu with flags := (flags.dec value).2 } compared =
        compareA { m.cpu with flags } compared := rfl
  exact consume_modify_of_lost cell lost

/-- The zero and negative flags of the increment are lost in the subtraction. -/
theorem execute_isc (cell : IsCell m.bus addr) :
    (m.execute .inc (.address addr)).execute .sbc (.address addr) =
      m.execute .isc (.address addr) := by
  let subtract (cpu : Cpu) (value : UInt8) : Cpu := cpu.add (~~~value)
  have lost (flags : Flags) (value subtracted : UInt8) :
      subtract { m.cpu with flags := (flags.inc value).2 } subtracted =
        subtract { m.cpu with flags } subtracted := rfl
  exact consume_modify_of_lost cell lost

theorem execute_lax (cell : IsCell m.bus addr) :
    (m.execute .lda (.address addr)).execute .ldx (.address addr) =
      m.execute .lax (.address addr) :=
  consume_consume cell Cpu.setA Cpu.setX

end

/-- In flat RAM a combined instruction leaves registers, flags and memory as its two halves do, one
    after the other. With an immediate operand, ASR is AND and a shift of the accumulator, ANC is
    AND and a copy of the negative flag to the carry, and the opcode $EB subtracts as $E9 does. -/
theorem combined_eq_halves (m : Machine FlatMemory) (addr : UInt16) (value : UInt8) :
    m.execute .slo (.address addr) =
      (m.execute .asl (.address addr)).execute .ora (.address addr) ∧
    m.execute .rla (.address addr) =
      (m.execute .rol (.address addr)).execute .and (.address addr) ∧
    m.execute .sre (.address addr) =
      (m.execute .lsr (.address addr)).execute .eor (.address addr) ∧
    m.execute .rra (.address addr) =
      (m.execute .ror (.address addr)).execute .adc (.address addr) ∧
    m.execute .dcp (.address addr) =
      (m.execute .dec (.address addr)).execute .cmp (.address addr) ∧
    m.execute .isc (.address addr) =
      (m.execute .inc (.address addr)).execute .sbc (.address addr) ∧
    m.execute .lax (.address addr) =
      (m.execute .lda (.address addr)).execute .ldx (.address addr) ∧
    m.execute .asr (.immediate value) =
      (m.execute .and (.immediate value)).execute .lsr .accumulator ∧
    m.execute .anc (.immediate value) =
      (m.execute .and (.immediate value)).mapFlags (fun f => { f with carry := f.negative }) ∧
    Instruction.decode 0xEB = Instruction.decode 0xE9 ∧
    (Instruction.decode 0xEB).mnemonic = .sbc ∧ (Instruction.decode 0xEB).mode = .immediate := by
  have cell : IsCell m.bus addr := isCell_flat m.bus addr
  refine ⟨(execute_slo cell).symm, (execute_rla cell).symm, (execute_sre cell).symm,
    (execute_rra cell).symm, (execute_dcp cell).symm, (execute_isc cell).symm,
    (execute_lax cell).symm, ?_, ?_, ?_, ?_, ?_⟩
  · rfl
  · rfl
  · decide +kernel
  · decide +kernel
  · decide +kernel

end Machine
end Nes
