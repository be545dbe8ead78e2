/-
  The writes of a step, byte by byte.

  Model (read this before the theorems). A machine is put on a bus that keeps a record
  (`Machine.recorded`), makes its step there, and is taken off the record again
  (`Machine.unrecorded`). The record changes nothing: taking it off commutes with every access,
  every instruction and the whole step (`step_unrecorded`). So `Machine.stepWrites` are the writes
  that the step makes on the plain bus, in their order.

  What these writes are is said in three places only. An instruction makes those of
  `Machine.executed`, a table with one row for each mnemonic that writes. Entering a handler makes
  those of `Machine.entered`: the two halves of the program counter and the status byte. The
  reset and an opcode that is skipped write nothing (`stepWrites_eq`).
-/
import Nes.Cpu.FlatMemory
import Nes.Cpu.Step

namespace Nes

/-- The address and the byte of a write. -/
def Access.write? : Access → Option (UInt16 × UInt8)
  | .read _ _ => none
  | .write addr value => some (addr, value)

/-- The address where the stack pointer leads. -/
def stackCell (s : UInt8) : UInt16 := stackPage + s.toUInt16

/-- The write that stores a value into an operand, if the operand is in memory. -/
def Operand.stored (value : UInt8) : Operand → List (UInt16 × UInt8)
  | .address addr => [(addr, value)]
  | .implied | .accumulator | .immediate _ => []

namespace Machine

variable {σ : Type} [Bus σ]

/-- The machine with an empty record between it and its bus. -/
def recorded (m : Machine σ) : Machine (Recorded σ) := ⟨m.cpu, ⟨m.bus, []⟩⟩

/-- The machine without the record. -/
def unrecorded (r : Machine (Recorded σ)) : Machine σ := ⟨r.cpu, r.bus.bus⟩

/-- The writes on the record, the latest first. -/
def writes (r : Machine (Recorded σ)) : List (UInt16 × UInt8) :=
  r.bus.accesses.filterMap Access.write?

/-- The writes of a step, the first one first. -/
def stepWrites (m : Machine σ) : List (UInt16 × UInt8) := m.recorded.step.2.writes.reverse

/-- The writes of an instruction, the first one first. -/
def executed (m : Machine σ) (operand : Operand) : Mnemonic → List (UInt16 × UInt8)
  | .sta => operand.stored m.cpu.a
  | .stx => operand.stored m.cpu.x
  | .sty => operand.stored m.cpu.y
  | .sax => operand.stored (m.cpu.a &&& m.cpu.x)
  | .asl | .slo => operand.stored (m.modify operand Flags.asl).1
  | .lsr | .sre => operand.stored (m.modify operand Flags.lsr).1
  | .rol | .rla => operand.stored (m.modify operand Flags.rol).1
  | .ror | .rra => operand.stored (m.modify operand Flags.ror).1
  | .inc | .isc => operand.stored ((m.load operand).1 + 1)
  | .dec | .dcp => operand.stored ((m.load operand).1 - 1)
  | .pha => [(stackCell m.cpu.s, m.cpu.a)]
  | .php => [(stackCell m.cpu.s, m.cpu.flags.pushed true)]
  | .jsr =>
    [(stackCell m.cpu.s, highByte (m.cpu.pc - 1)),
      (stackCell (m.cpu.s - 1), lowByte (m.cpu.pc - 1))]
  | _ => []

/-- The writes when a handler is entered, the first one first. -/
def entered (m : Machine σ) (brk : Bool) : List (UInt16 × UInt8) :=
  [(stackCell m.cpu.s, highByte m.cpu.pc), (stackCell (m.cpu.s - 1), lowByte m.cpu.pc),
    (stackCell (m.cpu.s - 1 - 1), m.cpu.flags.pushed brk)]

/-- The writes of an action, the first one first. -/
def performed (m : Machine σ) : Action → List (UInt16 × UInt8)
  | .reset | .skip _ _ => []
  | .interrupt _ brk _ => m.entered brk
  | .execute _ _ instruction operand _ => m.executed operand instruction.mnemonic

/-! ## The record changes nothing -/

section
variable (r : Machine (Recorded σ))

theorem operand_unrecorded (mode : Mode) :
    (r.operand mode).1 = (r.unrecorded.operand mode).1 ∧
      (r.operand mode).2.unrecorded = (r.unrecorded.operand mode).2 := by
  cases mode <;> exact ⟨rfl, rfl⟩

omit [Bus σ] in
theorem branch_unrecorded (mnemonic : Mnemonic) (operand : Operand) :
    (r.branch mnemonic operand).unrecorded = r.unrecorded.branch mnemonic operand := by
  show (if r.cpu.flags.branches mnemonic then _ else r).unrecorded =
    if r.cpu.flags.branches mnemonic then _ else r.unrecorded
  split <;> rfl

theorem execute_unrecorded (mnemonic : Mnemonic) (operand : Operand) :
    (r.execute mnemonic operand).unrecorded = r.unrecorded.execute mnemonic operand := by
  cases mnemonic with
  | bcc | bcs | bne | beq | bpl | bmi | bvc | bvs => exact branch_unrecorded r _ operand
  | _ => cases operand <;> rfl

theorem poll_unrecorded : r.poll.unrecorded = r.unrecorded.poll := rfl

theorem next_unrecorded :
    r.next.1 = r.unrecorded.next.1 ∧ r.next.2.unrecorded = r.unrecorded.next.2 := by
  unfold next
  dsimp only
  rw [← poll_unrecorded]
  generalize r.poll = r
  have hdue : r.unrecorded.cpu.due = r.cpu.due := rfl
  have hopcode : r.unrecorded.fetch.1 = r.fetch.1 := rfl
  have hfetch : r.unrecorded.fetch.2 = r.fetch.2.unrecorded := rfl
  rw [hdue, hopcode, hfetch]
  cases r.cpu.due with
  | some action => exact ⟨rfl, rfl⟩
  | none =>
    dsimp only
    -- which of the 256 instructions it is does not matter here
    generalize Instruction.decode r.fetch.1 = instruction
    split
    · obtain ⟨hoperand, hrest⟩ := operand_unrecorded r.fetch.2 instruction.mode
      refine ⟨?_, hrest⟩
      exact congrArg (fun found : Operand × Bool =>
        Action.execute r.cpu.pc r.fetch.1 instruction found.1 found.2) hoperand
    · exact ⟨rfl, rfl⟩

theorem perform_unrecorded (action : Action) :
    (r.perform action).1 = (r.unrecorded.perform action).1 ∧
      (r.perform action).2.unrecorded = (r.unrecorded.perform action).2 := by
  cases action with
  | reset | interrupt | skip => exact ⟨rfl, rfl⟩
  | execute _ _ instruction operand _ =>
    exact ⟨rfl, execute_unrecorded r instruction.mnemonic operand⟩

theorem step_unrecorded :
    r.step.1 = r.unrecorded.step.1 ∧ r.step.2.unrecorded = r.unrecorded.step.2 := by
  obtain ⟨haction, hrest⟩ := next_unrecorded r
  unfold step
  dsimp only
  rw [← haction, ← hrest]
  exact perform_unrecorded r.next.2 r.next.1

/-! ## What is written -/

theorem writes_operand (mode : Mode) : (r.operand mode).2.writes = r.writes := by
  cases mode <;> rfl

omit [Bus σ] in
theorem writes_branch (mnemonic : Mnemonic) (operand : Operand) :
    (r.branch mnemonic operand).writes = r.writes := by
  unfold branch
  split <;> rfl

theorem writes_execute (mnemonic : Mnemonic) (operand : Operand) :
    (r.execute mnemonic operand).writes =
      (r.unrecorded.executed operand mnemonic).reverse ++ r.writes := by
  cases mnemonic with
  | bcc | bcs | bne | beq | bpl | bmi | bvc | bvs => exact writes_branch r _ operand
  | _ => cases operand <;> rfl

theorem writes_next : r.next.2.writes = r.writes := by
  have hpoll : r.poll.writes = r.writes := rfl
  rw [← hpoll]
  unfold next
  dsimp only
  generalize r.poll = r
  cases r.cpu.due with
  | some action => rfl
  | none =>
    have hfetch : r.fetch.2.writes = r.writes := rfl
    dsimp only
    generalize Instruction.decode r.fetch.1 = instruction
    split
    · exact (writes_operand r.fetch.2 instruction.mode).trans hfetch
    · exact hfetch

theorem writes_perform (action : Action) :
    (r.perform action).2.writes = (r.unrecorded.performed action).reverse ++ r.writes := by
  cases action with
  | reset | interrupt | skip => rfl
  | execute _ _ instruction operand _ => exact writes_execute r instruction.mnemonic operand

end

/-- The writes of a step are those of its action. -/
theorem stepWrites_eq (m : Machine σ) : m.stepWrites = m.next.2.performed m.next.1 := by
  obtain ⟨haction, hrest⟩ := next_unrecorded m.recorded
  have hwrites : m.recorded.step.2.writes =
      (m.recorded.next.2.unrecorded.performed m.recorded.next.1).reverse := by
    calc m.recorded.step.2.writes
      _ = _ ++ m.recorded.next.2.writes := writes_perform m.recorded.next.2 m.recorded.next.1
      _ = _ ++ m.recorded.writes := by rw [writes_next]
      _ = _ := List.append_nil _
  unfold stepWrites
  rw [hwrites, List.reverse_reverse, haction, hrest]
  rfl

end Machine
end Nes
