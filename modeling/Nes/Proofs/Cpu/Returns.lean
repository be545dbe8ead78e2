/-
  Handlers and subroutines come back.

  Model (read this before the theorems). All is on flat memory, where a byte that was stored is
  found again, and what a program sees of the CPU are its `Registers`. Between two steps the rest of
  the machine is at work, and nothing of that changes what the program sees (`Machine.Beside`).

  A handler that starts with an RTI pulls what entering it has pushed (`registers_rti`). So it
  returns to where the CPU was when the interrupt was serviced. For a BRK that is two bytes behind
  its opcode only if it is serviced at once (`kind_of_waiting_brk`). One that is masked waits, and
  the program goes on (`brk_waits`).

  Subroutines that only call and return are given by their code (`CallsOnly`). They run in steps
  that pair each RTS with the latest JSR (`Paired`). One open call uses two cells below the stack
  pointer. With 128 of them the stack page is full, and what the first one pushed is still there
  (`Kept`, `kept_call`).
-/
import Mathlib.Logic.Relation
import Nes.Proofs.Cpu.Boundaries

namespace Nes

/-- The registers of the CPU. -/
structure Registers where
  pc : UInt16
  a : UInt8
  x : UInt8
  y : UInt8
  s : UInt8
  flags : Flags
deriving DecidableEq

/-- The registers, without what the CPU keeps for itself. -/
def Cpu.registers (cpu : Cpu) : Registers := ⟨cpu.pc, cpu.a, cpu.x, cpu.y, cpu.s, cpu.flags⟩

/-- Between two steps nothing changes what the program sees: the machine has other work on its bus,
    with cycles that are counted, lines that are raised and interrupts that are requested. -/
structure Machine.Beside (m later : Machine FlatMemory) : Prop where
  registers : later.cpu.registers = m.cpu.registers
  cells : later.bus.cells = m.bus.cells

/-- The three cells that entering a handler pushes to. -/
def pushedCells (s : UInt8) : List UInt16 := [stackCell s, stackCell (s - 1), stackCell (s - 2)]

/-- An address that is not in the stack page. -/
def OutsideStack (addr : UInt16) : Prop := ∀ s, addr ≠ stackCell s

/-- Code that does nothing but call and return, with at most `depth` calls open. -/
inductive CallsOnly (memory : FlatMemory) : (depth : Nat) → (pc : UInt16) → Prop
  | rts {depth : Nat} {pc : UInt16} (outside : OutsideStack pc) (op : memory.peek pc = 0x60) :
      CallsOnly memory depth pc
  | jsr {depth : Nat} {pc : UInt16} (outside : ∀ addr ∈ [pc, pc + 1, pc + 2], OutsideStack addr)
      (op : memory.peek pc = 0x20)
      (callee : CallsOnly memory depth (word (memory.peek (pc + 1)) (memory.peek (pc + 2))))
      (rest : CallsOnly memory (depth + 1) (pc + 3)) : CallsOnly memory (depth + 1) pc

/-- A call that has not returned yet: where the JSR is, and the stack pointer there. -/
structure OpenCall where
  pc : UInt16
  s : UInt8

/-- A step of code that only calls and returns, with the calls that are open, the latest first. An
    RTS closes the latest one: it goes to the instruction behind the JSR, with the stack pointer of
    the JSR. No interrupt is serviced. -/
inductive Paired :
    Machine FlatMemory × List OpenCall → Machine FlatMemory × List OpenCall → Prop
  | jsr {m : Machine FlatMemory} {calls : List OpenCall} (quiet : m.kind = .instruction)
      (op : m.bus.peek m.cpu.pc = 0x20) :
      Paired (m, calls) (m.step.2, ⟨m.cpu.pc, m.cpu.s⟩ :: calls)
  | rts {m : Machine FlatMemory} {call : OpenCall} {calls : List OpenCall}
      (quiet : m.kind = .instruction) (op : m.bus.peek m.cpu.pc = 0x60)
      (behind : m.step.2.cpu.pc = call.pc + 3) (restored : m.step.2.cpu.s = call.s) :
      Paired (m, call :: calls) (m.step.2, calls)

/-- What code with at most `depth` open calls leaves alone. It uses two cells for each of them. -/
structure Kept (depth : Nat) (m last : Machine FlatMemory) : Prop where
  quiet : last.kind = .instruction
  registers : last.cpu.registers = { m.cpu.registers with pc := last.cpu.pc }
  outside : ∀ addr, OutsideStack addr → last.bus.peek addr = m.bus.peek addr
  stack : ∀ t, 2 * depth ≤ (m.cpu.s - t).toNat →
    last.bus.peek (stackCell t) = m.bus.peek (stackCell t)

/-! ## Cells of the stack -/

theorem Cpu.pc_of_registers {cpu cpu' : Cpu} (h : cpu'.registers = cpu.registers) :
    cpu'.pc = cpu.pc := congrArg Registers.pc h

theorem toNat_stackCell (s : UInt8) : (stackCell s).toNat = 0x100 + s.toNat := by
  have h := s.toNat_lt
  unfold stackCell stackPage
  rw [UInt16.toNat_add, UInt8.toNat_toUInt16]
  show (0x100 + s.toNat) % 2 ^ 16 = 0x100 + s.toNat
  omega

theorem stackCell_inj {s t : UInt8} : stackCell s = stackCell t ↔ s = t := by
  refine ⟨fun h => UInt8.toNat_inj.mp ?_, congrArg stackCell⟩
  have hnat := congrArg UInt16.toNat h
  rw [toNat_stackCell, toNat_stackCell] at hnat
  omega

/-- The stack page ends long before the vectors. -/
theorem ne_stackCell {addr : UInt16} (h : 0x200 ≤ addr.toNat) (s : UInt8) :
    addr ≠ stackCell s := by
  have hs := s.toNat_lt
  rintro rfl
  rw [toNat_stackCell] at h
  omega

namespace FlatMemory

/-- The memory when the program counter and the status byte were pushed. -/
def pushEntry (memory : FlatMemory) (s : UInt8) (pc : UInt16) (status : UInt8) : FlatMemory :=
  ((memory.poke (stackCell s) (highByte pc)).poke (stackCell (s - 1)) (lowByte pc)).poke
    (stackCell (s - 2)) status

section
variable (memory : FlatMemory) (s : UInt8) (pc : UInt16) (status : UInt8)

theorem peek_of_cells {memory memory' : FlatMemory} (h : memory'.cells = memory.cells)
    (addr : UInt16) : memory'.peek addr = memory.peek addr := by
  unfold peek
  dsimp only
  simp only [h]

theorem peek_pushEntry_of_notMem {addr : UInt16} (h : addr ∉ pushedCells s) :
    (memory.pushEntry s pc status).peek addr = memory.peek addr := by
  simp only [pushedCells, List.mem_cons, List.not_mem_nil, or_false, not_or] at h
  obtain ⟨hs, hone, htwo⟩ := h
  unfold pushEntry
  rw [peek_poke_of_ne _ htwo, peek_poke_of_ne _ hone, peek_poke_of_ne _ hs]

theorem peek_pushEntry :
    (memory.pushEntry s pc status).peek (stackCell s) = highByte pc ∧
    (memory.pushEntry s pc status).peek (stackCell (s - 1)) = lowByte pc ∧
    (memory.pushEntry s pc status).peek (stackCell (s - 2)) = status := by
  have hone : stackCell s ≠ stackCell (s - 1) := by
    rw [Ne, stackCell_inj]
    grind
  have htwo : stackCell s ≠ stackCell (s - 2) := by
    rw [Ne, stackCell_inj]
    grind
  have hthree : stackCell (s - 1) ≠ stackCell (s - 2) := by
    rw [Ne, stackCell_inj]
    grind
  unfold pushEntry
  refine ⟨?_, ?_, peek_poke _ _ _⟩
  · rw [peek_poke_of_ne _ htwo, peek_poke_of_ne _ hone, peek_poke]
  · rw [peek_poke_of_ne _ hthree, peek_poke]

end

end FlatMemory

/-- The vectors are behind the stack page. -/
theorem notMem_of_entry {kind : StepKind} {vector : UInt16} {brk : Bool}
    (h : kind.entry = some (vector, brk)) (s : UInt8) :
    vector ∉ pushedCells s ∧ vector + 1 ∉ pushedCells s := by
  have hbehind : 0x200 ≤ vector.toNat ∧ 0x200 ≤ (vector + 1).toNat := by
    cases kind <;> cases h <;> decide
  have hne {addr : UInt16} (haddr : 0x200 ≤ addr.toNat) : addr ∉ pushedCells s := by
    simp only [pushedCells, List.mem_cons, List.not_mem_nil, or_false, not_or]
    exact ⟨ne_stackCell haddr _, ne_stackCell haddr _, ne_stackCell haddr _⟩
  exact ⟨hne hbehind.1, hne hbehind.2⟩

namespace Machine

/-! ## Steps on flat memory -/

section
variable {m : Machine FlatMemory}

/-- The machine behind the opcode. -/
def behindOpcode (m : Machine FlatMemory) : Machine FlatMemory :=
  ⟨{ m.cpu with pc := m.cpu.pc + 1, pending := m.latched }, { m.bus with nmi := false }⟩

theorem operand_absolute (m : Machine FlatMemory) :
    m.operand .absolute =
      ((.address (word (m.bus.peek m.cpu.pc) (m.bus.peek (m.cpu.pc + 1))), false),
        ⟨{ m.cpu with pc := m.cpu.pc + 1 + 1 }, m.bus⟩) := rfl

theorem execute_jsr (m : Machine FlatMemory) (target : UInt16) :
    m.execute .jsr (.address target) = ⟨{ m.cpu with pc := target, s := m.cpu.s - 1 - 1 },
      (m.bus.poke (stackCell m.cpu.s) (highByte (m.cpu.pc - 1))).poke (stackCell (m.cpu.s - 1))
        (lowByte (m.cpu.pc - 1))⟩ := rfl

theorem decode_flow :
    Instruction.decode 0x00 = ⟨.brk, .implied, .fixed 7⟩ ∧
    Instruction.decode 0x20 = ⟨.jsr, .absolute, .fixed 6⟩ ∧
    Instruction.decode 0x40 = ⟨.rti, .implied, .fixed 6⟩ ∧
    Instruction.decode 0x58 = ⟨.cli, .implied, .fixed 2⟩ ∧
    Instruction.decode 0x60 = ⟨.rts, .implied, .fixed 6⟩ := by
  decide +kernel

variable (h : m.kind = .instruction)
include h

/-- A step executes the instruction that is found in memory. -/
theorem step_of_peek {instruction : Instruction}
    (hdecode : Instruction.decode (m.bus.peek m.cpu.pc) = instruction)
    (supported : instruction.mnemonic.supported = true) :
    m.step.2 = (m.behindOpcode.operand instruction.mode).2.execute instruction.mnemonic
      (m.behindOpcode.operand instruction.mode).1.1 := by
  rw [step_eq_serve, h]
  exact instruct_supported (m := m.ready) hdecode supported

theorem step_brk (hop : m.bus.peek m.cpu.pc = 0x00) :
    m.step.2 = ⟨{ m.cpu with pending := .brk, pc := m.cpu.pc + 2 },
      { m.bus with nmi := false }⟩ := by
  have hdecode : Instruction.decode (m.bus.peek m.cpu.pc) = ⟨.brk, .implied, .fixed 7⟩ :=
    hop ▸ decode_flow.1
  have hpc : m.cpu.pc + 2 = m.cpu.pc + 1 + 1 := by grind
  have hrequest : { m.cpu with pending := m.latched, pc := m.cpu.pc + 1 + 1 }.request .brk =
      { m.cpu with pending := .brk, pc := m.cpu.pc + 1 + 1 } := by
    unfold Cpu.request latched
    cases m.cpu.pending <;> cases m.irqLevel <;> rfl
  rw [step_of_peek h hdecode rfl, hpc, ← hrequest]
  rfl

theorem step_jsr (hop : m.bus.peek m.cpu.pc = 0x20) :
    m.step.2 = ⟨{ m.cpu with
        pending := m.latched, s := m.cpu.s - 2
        pc := word (m.bus.peek (m.cpu.pc + 1)) (m.bus.peek (m.cpu.pc + 2)) },
      (FlatMemory.poke { m.bus with nmi := false } (stackCell m.cpu.s)
        (highByte (m.cpu.pc + 2))).poke (stackCell (m.cpu.s - 1)) (lowByte (m.cpu.pc + 2))⟩ := by
  have hdecode : Instruction.decode (m.bus.peek m.cpu.pc) = ⟨.jsr, .absolute, .fixed 6⟩ :=
    hop ▸ decode_flow.2.1
  have hpc : m.cpu.pc + 2 = m.cpu.pc + 1 + 1 := by grind
  have hback : m.cpu.pc + 1 + 1 + 1 - 1 = m.cpu.pc + 2 := by grind
  have hs : m.cpu.s - 2 = m.cpu.s - 1 - 1 := by grind
  have hstep : m.step.2 = (m.behindOpcode.operand .absolute).2.execute .jsr
      (m.behindOpcode.operand .absolute).1.1 := step_of_peek h hdecode rfl
  rw [operand_absolute, execute_jsr] at hstep
  rw [hstep, hs]
  dsimp only [behindOpcode]
  rw [hback, hpc]
  rfl

theorem step_cli (hop : m.bus.peek m.cpu.pc = 0x58) :
    m.step.2 = ⟨{ m.cpu with
        pending := m.latched, pc := m.cpu.pc + 1
        flags := { m.cpu.flags with interrupt := false } }, { m.bus with nmi := false }⟩ := by
  have hdecode : Instruction.decode (m.bus.peek m.cpu.pc) = ⟨.cli, .implied, .fixed 2⟩ :=
    hop ▸ decode_flow.2.2.2.1
  exact step_of_peek h hdecode rfl

theorem step_rts (hop : m.bus.peek m.cpu.pc = 0x60) :
    m.step.2 = ⟨{ m.cpu with
        pending := m.latched, s := m.cpu.s + 2
        pc := word (m.bus.peek (stackCell (m.cpu.s + 1)))
          (m.bus.peek (stackCell (m.cpu.s + 2))) + 1 }, { m.bus with nmi := false }⟩ := by
  have hdecode : Instruction.decode (m.bus.peek m.cpu.pc) = ⟨.rts, .implied, .fixed 6⟩ :=
    hop ▸ decode_flow.2.2.2.2
  have hs : m.cpu.s + 2 = m.cpu.s + 1 + 1 := by grind
  rw [hs]
  exact step_of_peek h hdecode rfl

theorem step_rti (hop : m.bus.peek m.cpu.pc = 0x40) :
    m.step.2 = ⟨{ m.cpu with
        pending := m.latched, s := m.cpu.s + 3
        flags := Flags.pulled (m.bus.peek (stackCell (m.cpu.s + 1)))
        pc := word (m.bus.peek (stackCell (m.cpu.s + 2)))
          (m.bus.peek (stackCell (m.cpu.s + 3))) }, { m.bus with nmi := false }⟩ := by
  have hdecode : Instruction.decode (m.bus.peek m.cpu.pc) = ⟨.rti, .implied, .fixed 6⟩ :=
    hop ▸ decode_flow.2.2.1
  have htwo : m.cpu.s + 2 = m.cpu.s + 1 + 1 := by grind
  have hthree : m.cpu.s + 3 = m.cpu.s + 1 + 1 + 1 := by grind
  rw [htwo, hthree]
  exact step_of_peek h hdecode rfl

end

/-! ## Handlers -/

section
variable {σ : Type} [Bus σ] {m : Machine σ}

/-- A BRK that waits is serviced, unless an NMI comes first or it is masked. -/
theorem kind_of_waiting_brk (h : m.cpu.pending = .brk) :
    m.kind = if m.nmiEdge then .nmi else if m.cpu.flags.interrupt then .instruction else .brk := by
  unfold kind
  rw [h]
  cases m.nmiEdge <;> cases m.cpu.flags.interrupt <;> simp

theorem pending_operand (m : Machine σ) (mode : Mode) :
    (m.operand mode).2.cpu.pending = m.cpu.pending := by
  cases mode <;> rfl

/-- No instruction takes a BRK that waits. -/
theorem pending_execute (h : m.cpu.pending = .brk) (mnemonic : Mnemonic) (operand : Operand) :
    (m.execute mnemonic operand).cpu.pending = .brk := by
  cases mnemonic with
  | brk =>
    show (Cpu.request _ _).pending = .brk
    unfold Cpu.request
    split
    · rfl
    · exact h
  | bcc | bcs | bne | beq | bpl | bmi | bvc | bvs =>
    show (m.branch _ operand).cpu.pending = .brk
    unfold branch
    split <;> exact h
  | _ => cases operand <;> exact h

/-- A BRK that is masked goes on waiting. -/
theorem brk_waits (h : m.cpu.pending = .brk) (hkind : m.kind = .instruction) :
    m.step.2.cpu.pending = .brk := by
  have hready : m.ready.fetch.2.cpu.pending = .brk := if_pos h
  obtain ⟨instruction, hdecode⟩ :
      ∃ instruction, Instruction.decode m.ready.fetch.1 = instruction := ⟨_, rfl⟩
  have hstep : m.step = m.ready.instruct := by
    rw [step_eq_serve, hkind]
    rfl
  rw [hstep]
  cases supported : instruction.mnemonic.supported with
  | true =>
    rw [instruct_supported hdecode supported]
    exact pending_execute ((pending_operand _ _).trans hready) _ _
  | false =>
    rw [instruct_skipped hdecode supported]
    exact hready

end

section
variable {m later : Machine FlatMemory}

/-- Entering a handler, in flat memory. -/
theorem step_entry {vector : UInt16} {brk : Bool} (h : m.kind.entry = some (vector, brk)) :
    m.step.2 = ⟨{ m.cpu with
        pc := word (m.bus.peek vector) (m.bus.peek (vector + 1)), s := m.cpu.s - 3
        flags := { m.cpu.flags with interrupt := true }, pending := .none },
      FlatMemory.pushEntry { m.bus with nmi := false } m.cpu.s m.cpu.pc
        (m.cpu.flags.pushed brk)⟩ := by
  have htwo : m.cpu.s - 2 = m.cpu.s - 1 - 1 := by grind
  have hthree : m.cpu.s - 3 = m.cpu.s - 1 - 1 - 1 := by grind
  obtain ⟨hlow, hhigh⟩ := notMem_of_entry h m.cpu.s
  let memory : FlatMemory := { m.bus with nmi := false }
  let pushed := memory.pushEntry m.cpu.s m.cpu.pc (m.cpu.flags.pushed brk)
  have hstep : m.step.2 = ⟨{ m.cpu with
      pc := word (pushed.peek vector) (pushed.peek (vector + 1)), s := m.cpu.s - 3
      flags := { m.cpu.flags with interrupt := true }, pending := .none }, pushed⟩ := by
    dsimp only [pushed, FlatMemory.pushEntry]
    rw [step_of_entry h, htwo, hthree]
    rfl
  rw [hstep, memory.peek_pushEntry_of_notMem _ _ _ hlow,
    memory.peek_pushEntry_of_notMem _ _ _ hhigh]
  rfl

/-- A handler that returns at once leaves the machine as it was, but for the cells that were pushed
    to. -/
theorem registers_rti {vector : UInt16} {brk : Bool} (h : m.kind.entry = some (vector, brk))
    (hbeside : m.step.2.Beside later)
    (houtside : word (m.bus.peek vector) (m.bus.peek (vector + 1)) ∉ pushedCells m.cpu.s)
    (hrti : m.bus.peek (word (m.bus.peek vector) (m.bus.peek (vector + 1))) = 0x40)
    (hquiet : later.kind = .instruction) :
    later.step.2.cpu.registers = m.cpu.registers ∧
      ∀ addr ∉ pushedCells m.cpu.s, later.step.2.bus.peek addr = m.bus.peek addr := by
  obtain ⟨hregisters, hcells⟩ := hbeside
  rw [step_entry h] at hregisters hcells
  let pushed := FlatMemory.pushEntry { m.bus with nmi := false } m.cpu.s m.cpu.pc
    (m.cpu.flags.pushed brk)
  have hmemory : ∀ addr, later.bus.peek addr = pushed.peek addr := FlatMemory.peek_of_cells hcells
  have hkept : ∀ addr ∉ pushedCells m.cpu.s, pushed.peek addr = m.bus.peek addr :=
    fun addr hne => FlatMemory.peek_pushEntry_of_notMem _ _ _ _ hne
  obtain ⟨hhigh, hlow, hstatus⟩ : pushed.peek (stackCell m.cpu.s) = highByte m.cpu.pc ∧
      pushed.peek (stackCell (m.cpu.s - 1)) = lowByte m.cpu.pc ∧
      pushed.peek (stackCell (m.cpu.s - 2)) = m.cpu.flags.pushed brk :=
    FlatMemory.peek_pushEntry _ _ _ _
  obtain ⟨cpu, memory⟩ := later
  obtain ⟨a, x, y, s, flags, pc, pending, cycles, line, reported⟩ := cpu
  cases hregisters
  have hop : memory.peek (word (m.bus.peek vector) (m.bus.peek (vector + 1))) = 0x40 := by
    rw [hmemory, hkept _ houtside, hrti]
  rw [step_rti hquiet hop]
  have hone : m.cpu.s - 3 + 1 = m.cpu.s - 2 := by grind
  have htwo : m.cpu.s - 3 + 2 = m.cpu.s - 1 := by grind
  have hthree : m.cpu.s - 3 + 3 = m.cpu.s := by grind
  constructor
  · show Registers.mk (word (memory.peek (stackCell (m.cpu.s - 3 + 2)))
        (memory.peek (stackCell (m.cpu.s - 3 + 3)))) m.cpu.a m.cpu.x m.cpu.y (m.cpu.s - 3 + 3)
      (Flags.pulled (memory.peek (stackCell (m.cpu.s - 3 + 1)))) = _
    rw [hone, htwo, hthree, hmemory, hmemory, hmemory, hhigh, hlow, hstatus, word_halves,
      Flags.pulled_pushed]
    rfl
  · exact fun addr hne => (hmemory addr).trans (hkept addr hne)

/-- BRK skips a byte, and waits. -/
theorem waits_behind_brk (h : m.kind = .instruction) (hop : m.bus.peek m.cpu.pc = 0x00)
    (hbeside : m.step.2.Beside later) (hwaits : later.cpu.pending = m.step.2.cpu.pending) :
    later.cpu.pending = .brk ∧
      later.cpu.registers = { m.cpu.registers with pc := m.cpu.pc + 2 } := by
  rw [step_brk h hop] at hbeside hwaits
  exact ⟨hwaits, hbeside.registers⟩

end

/-! ## Subroutines -/

section
variable {m : Machine FlatMemory}

/-- Where one instruction follows another and the lines stay as they are, no interrupt is due. -/
theorem kind_of_unchanged {m' : Machine FlatMemory} (h : m.kind = .instruction)
    (hpending : m'.cpu.pending = m.latched) (hflags : m'.cpu.flags = m.cpu.flags)
    (hnmi : m'.bus.nmi = false) (hirq : m'.bus.irq = m.bus.irq) : m'.kind = .instruction := by
  have hedge : m'.nmiEdge = false := hnmi
  have hlevel : m'.irqLevel = m.irqLevel := hirq
  unfold kind latched at *
  rw [hpending, hflags, hedge, hlevel]
  revert h
  cases m.cpu.pending <;> cases m.irqLevel <;> cases m.cpu.flags.interrupt <;>
    cases m.nmiEdge <;> simp

/-- Two cells further down the stack. -/
theorem stack_distance {s t : UInt8} {depth : Nat} (h : 2 * (depth + 1) ≤ (s - t).toNat) :
    2 * depth ≤ (s - 2 - t).toNat ∧ t ≠ s ∧ t ≠ s - 1 := by
  have hs := s.toNat_lt
  have ht := t.toNat_lt
  rw [UInt8.toNat_sub] at h
  refine ⟨?_, ?_, ?_⟩
  · rw [UInt8.toNat_sub, UInt8.toNat_sub]
    show 2 * depth ≤ (2 ^ 8 - t.toNat + (2 ^ 8 - 2 + s.toNat) % 2 ^ 8) % 2 ^ 8
    omega
  · rintro rfl
    omega
  · rintro rfl
    rw [UInt8.toNat_sub] at h
    have hone : (1 : UInt8).toNat = 1 := rfl
    rw [hone] at h
    omega

/-- The cells that a JSR pushes to are lost, and no others. -/
theorem peek_step_jsr (h : m.kind = .instruction) (hop : m.bus.peek m.cpu.pc = 0x20) :
    (∀ addr, addr ≠ stackCell m.cpu.s → addr ≠ stackCell (m.cpu.s - 1) →
      m.step.2.bus.peek addr = m.bus.peek addr) ∧
    m.step.2.bus.peek (stackCell m.cpu.s) = highByte (m.cpu.pc + 2) ∧
    m.step.2.bus.peek (stackCell (m.cpu.s - 1)) = lowByte (m.cpu.pc + 2) := by
  have hne : stackCell m.cpu.s ≠ stackCell (m.cpu.s - 1) := by
    rw [Ne, stackCell_inj]
    grind
  rw [step_jsr h hop]
  refine ⟨fun addr hs hone => ?_, ?_, FlatMemory.peek_poke _ _ _⟩
  · rw [FlatMemory.peek_poke_of_ne _ hone, FlatMemory.peek_poke_of_ne _ hs]
    rfl
  · rw [FlatMemory.peek_poke_of_ne _ hne, FlatMemory.peek_poke]

theorem quiet_step_jsr (h : m.kind = .instruction) (hop : m.bus.peek m.cpu.pc = 0x20) :
    m.step.2.kind = .instruction := by
  rw [step_jsr h hop]
  exact kind_of_unchanged h rfl rfl rfl rfl

theorem quiet_step_rts (h : m.kind = .instruction) (hop : m.bus.peek m.cpu.pc = 0x60) :
    m.step.2.kind = .instruction := by
  rw [step_rts h hop]
  exact kind_of_unchanged h rfl rfl rfl rfl

section
variable {last : Machine FlatMemory} {depth : Nat} (h : m.kind = .instruction)
  (hop : m.bus.peek m.cpu.pc = 0x20) (hbody : Kept depth m.step.2 last)
include h hop hbody

/-- Where a subroutine ends the registers are those of the JSR, below its two pushes. -/
theorem registers_behind_body :
    last.cpu.registers = { m.cpu.registers with pc := last.cpu.pc, s := m.cpu.s - 2 } := by
  rw [hbody.registers, step_jsr h hop]
  rfl

/-- What is further up the stack than a subroutine may use is still there where it ends. -/
theorem peek_behind_body {t : UInt8} (hdistance : 2 * depth ≤ (m.cpu.s - 2 - t).toNat) :
    last.bus.peek (stackCell t) = m.step.2.bus.peek (stackCell t) := by
  have hsent : m.step.2.cpu.s = m.cpu.s - 2 := by
    rw [step_jsr h hop]
  exact hbody.stack t (by rwa [hsent])

variable (hdepth : depth ≤ 127) (hrts : last.bus.peek last.cpu.pc = 0x60)
include hdepth hrts

/-- An RTS finds what the JSR pushed, and goes behind it. -/
theorem step_closing_rts : last.step.2 =
    ⟨{ last.cpu with pending := last.latched, s := m.cpu.s, pc := m.cpu.pc + 3 },
      { last.bus with nmi := false }⟩ := by
  obtain ⟨-, hhigh, hlow⟩ := peek_step_jsr h hop
  have hs : last.cpu.s = m.cpu.s - 2 := congrArg Registers.s (registers_behind_body h hop hbody)
  have hone : last.cpu.s + 1 = m.cpu.s - 1 := by grind
  have htwo : last.cpu.s + 2 = m.cpu.s := by grind
  have hfarLow : m.cpu.s - 2 - (m.cpu.s - 1) = 255 := by grind
  have hfarHigh : m.cpu.s - 2 - m.cpu.s = 254 := by grind
  have hlow' : last.bus.peek (stackCell (m.cpu.s - 1)) = lowByte (m.cpu.pc + 2) := by
    rw [peek_behind_body h hop hbody, hlow]
    rw [hfarLow]
    show 2 * depth ≤ 255
    omega
  have hhigh' : last.bus.peek (stackCell m.cpu.s) = highByte (m.cpu.pc + 2) := by
    rw [peek_behind_body h hop hbody, hhigh]
    rw [hfarHigh]
    show 2 * depth ≤ 254
    omega
  have hpc : m.cpu.pc + 2 + 1 = m.cpu.pc + 3 := by grind
  rw [step_rts hbody.quiet hrts, hone, htwo, hlow', hhigh', word_halves, hpc]

/-- A call whose subroutine keeps what is further up the stack returns behind the JSR. -/
theorem kept_call :
    last.step.2.cpu.pc = m.cpu.pc + 3 ∧ Kept (depth + 1) m last.step.2 := by
  obtain ⟨hjsr, -, -⟩ := peek_step_jsr h hop
  have hreturn := step_closing_rts h hop hbody hdepth hrts
  have hpeek : ∀ addr, last.step.2.bus.peek addr = last.bus.peek addr :=
    FlatMemory.peek_of_cells (by rw [hreturn])
  refine ⟨by rw [hreturn], quiet_step_rts hbody.quiet hrts, ?_, ?_, ?_⟩
  · rw [hreturn]
    show { last.cpu.registers with pc := m.cpu.pc + 3, s := m.cpu.s } = _
    rw [registers_behind_body h hop hbody]
    rfl
  · intro addr houtside
    rw [hpeek, hbody.outside addr houtside, hjsr addr (houtside _) (houtside _)]
  · intro t hdistance
    obtain ⟨hbelow, hne, hnext⟩ := stack_distance hdistance
    rw [hpeek, peek_behind_body h hop hbody hbelow]
    exact hjsr _ (mt stackCell_inj.mp hne) (mt stackCell_inj.mp hnext)

end

end

end Machine

namespace Kept

variable {depth : Nat} {m mid last : Machine FlatMemory}

theorem refl (h : m.kind = .instruction) : Kept depth m m :=
  ⟨h, rfl, fun _ _ => rfl, fun _ _ => rfl⟩

theorem trans (h : Kept depth m mid) (h' : Kept depth mid last) : Kept depth m last where
  quiet := h'.quiet
  registers := by
    rw [h'.registers, h.registers]
  outside addr houtside := (h'.outside addr houtside).trans (h.outside addr houtside)
  stack t hdistance := by
    have hs : mid.cpu.s = m.cpu.s := congrArg Registers.s h.registers
    rw [h'.stack t (by rwa [hs]), h.stack t hdistance]

end Kept

/-- A call whose subroutine runs to its RTS is closed by it. -/
theorem Paired.call_returns {m last : Machine FlatMemory} {calls : List OpenCall} {depth : Nat}
    (hdepth : depth ≤ 127) (hquiet : m.kind = .instruction) (hop : m.bus.peek m.cpu.pc = 0x20)
    (hbody : Relation.ReflTransGen Paired (m.step.2, ⟨m.cpu.pc, m.cpu.s⟩ :: calls)
      (last, ⟨m.cpu.pc, m.cpu.s⟩ :: calls))
    (hrts : last.bus.peek last.cpu.pc = 0x60) (hkept : Kept depth m.step.2 last) :
    ∃ behind, Relation.ReflTransGen Paired (m, calls) (behind, calls) ∧
      behind.cpu.pc = m.cpu.pc + 3 ∧ Kept (depth + 1) m behind := by
  obtain ⟨hbehind, hcall⟩ := Machine.kept_call hquiet hop hkept hdepth hrts
  have hrestored : last.step.2.cpu.s = m.cpu.s := congrArg Registers.s hcall.registers
  refine ⟨last.step.2, ?_, hbehind, hcall⟩
  exact .head (.jsr hquiet hop) (hbody.tail (.rts hkept.quiet hrts hbehind hrestored))

/-- Code that only calls and returns reaches its RTS with all calls closed, and keeps what is
    further up the stack than it may use. -/
theorem CallsOnly.reaches_rts {memory : FlatMemory} {depth : Nat} {pc : UInt16}
    (code : CallsOnly memory depth pc) (hdepth : depth ≤ 127) {m : Machine FlatMemory}
    (hquiet : m.kind = .instruction) (hpc : m.cpu.pc = pc)
    (hmemory : ∀ addr, OutsideStack addr → m.bus.peek addr = memory.peek addr)
    (calls : List OpenCall) :
    ∃ last, Relation.ReflTransGen Paired (m, calls) (last, calls) ∧
      last.bus.peek last.cpu.pc = 0x60 ∧ Kept depth m last := by
  -- the induction is on the code: the calls of a subroutine, and what is behind each call
  induction code generalizing m calls with
  | rts outside op =>
    refine ⟨m, .refl, ?_, .refl hquiet⟩
    rw [hpc, hmemory _ outside, op]
  | jsr outside op callee rest ihCallee ihRest =>
    subst hpc
    simp only [List.mem_cons, List.not_mem_nil, or_false, forall_eq_or_imp, forall_eq] at outside
    obtain ⟨hopcode, hlow, hhigh⟩ := outside
    have hop : m.bus.peek m.cpu.pc = 0x20 := (hmemory _ hopcode).trans op
    have hcallee : m.step.2.cpu.pc =
        word (memory.peek (m.cpu.pc + 1)) (memory.peek (m.cpu.pc + 2)) := by
      rw [Machine.step_jsr hquiet hop, ← hmemory _ hlow, ← hmemory _ hhigh]
    obtain ⟨last, hbody, hrts, hkept⟩ := ihCallee (by omega)
      (Machine.quiet_step_jsr hquiet hop) hcallee
      (fun addr h => ((Machine.peek_step_jsr hquiet hop).1 addr (h _) (h _)).trans (hmemory addr h))
      (⟨m.cpu.pc, m.cpu.s⟩ :: calls)
    obtain ⟨behind, hcall, hbehind, hkeptCall⟩ :=
      Paired.call_returns (by omega) hquiet hop hbody hrts hkept
    obtain ⟨final, hrest, hrtsFinal, hkeptRest⟩ := ihRest hdepth hkeptCall.quiet hbehind
      (fun addr h => (hkeptCall.outside addr h).trans (hmemory addr h)) calls
    exact ⟨final, hcall.trans hrest, hrtsFinal, hkeptCall.trans hkeptRest⟩

theorem Machine.Beside.refl (m : Machine FlatMemory) : m.Beside m := ⟨rfl, rfl⟩

/-- Handlers and subroutines come back. A handler that starts with an RTI restores all registers,
    and all memory but the three cells that were pushed to. A BRK skips a byte and waits. In the
    next step it is serviced, two bytes behind its opcode, unless an NMI comes first or it is
    masked. One that is masked goes on waiting. A JSR to code that only calls and returns, with 128
    open calls at most, goes on behind the JSR with all calls paired, and with the stack pointer,
    the other registers and all memory but the stack page as they were. -/
theorem handlers_and_calls_return :
    (∀ (m later : Machine FlatMemory) (vector : UInt16) (brk : Bool),
      m.kind.entry = some (vector, brk) → m.step.2.Beside later → later.kind = .instruction →
      let handler := word (m.bus.peek vector) (m.bus.peek (vector + 1))
      handler ∉ pushedCells m.cpu.s → m.bus.peek handler = 0x40 →
      later.step.2.cpu.registers = m.cpu.registers ∧
        ∀ addr ∉ pushedCells m.cpu.s, later.step.2.bus.peek addr = m.bus.peek addr) ∧
    (∀ m later : Machine FlatMemory, m.kind = .instruction → m.bus.peek m.cpu.pc = 0x00 →
      m.step.2.Beside later → later.cpu.pending = m.step.2.cpu.pending →
      later.cpu.pending = .brk ∧
        later.cpu.registers = { m.cpu.registers with pc := m.cpu.pc + 2 }) ∧
    (∀ m : Machine FlatMemory, m.cpu.pending = .brk →
      (m.kind = if m.bus.nmi then .nmi else if m.cpu.flags.interrupt then .instruction else .brk) ∧
        (m.kind = .instruction → m.step.2.cpu.pending = .brk)) ∧
    (∀ (m : Machine FlatMemory) (depth : Nat), m.kind = .instruction →
      m.bus.peek m.cpu.pc = 0x20 → depth < 128 →
      CallsOnly m.bus depth (word (m.bus.peek (m.cpu.pc + 1)) (m.bus.peek (m.cpu.pc + 2))) →
      ∃ last, Relation.ReflTransGen Paired (m, []) (last, []) ∧
        last.cpu.registers = { m.cpu.registers with pc := m.cpu.pc + 3 } ∧
        ∀ addr, OutsideStack addr → last.bus.peek addr = m.bus.peek addr) := by
  refine ⟨?_, ?_, ?_, ?_⟩
  · intro m later vector brk hentry hbeside hquiet handler houtside hrti
    exact Machine.registers_rti hentry hbeside houtside hrti hquiet
  · intro m later hquiet hop hbeside hwaits
    exact Machine.waits_behind_brk hquiet hop hbeside hwaits
  · intro m hwaits
    exact ⟨Machine.kind_of_waiting_brk hwaits, Machine.brk_waits hwaits⟩
  · intro m depth hquiet hop hdepth code
    have hpc : m.step.2.cpu.pc =
        word (m.bus.peek (m.cpu.pc + 1)) (m.bus.peek (m.cpu.pc + 2)) := by
      rw [Machine.step_jsr hquiet hop]
    obtain ⟨last, hbody, hrts, hkept⟩ := code.reaches_rts (Nat.le_of_lt_succ hdepth)
      (Machine.quiet_step_jsr hquiet hop) hpc
      (fun addr h => (Machine.peek_step_jsr hquiet hop).1 addr (h _) (h _)) [⟨m.cpu.pc, m.cpu.s⟩]
    obtain ⟨behind, hcall, hbehind, hkeptCall⟩ :=
      Paired.call_returns (Nat.le_of_lt_succ hdepth) hquiet hop hbody hrts hkept
    refine ⟨behind, hcall, ?_, hkeptCall.outside⟩
    rw [← hbehind]
    exact hkeptCall.registers

/-- An NMI whose status byte is pushed at the other end of the stack page, a BRK at the last
    address, and a JSR whose last byte is the last one of memory. -/
theorem handlers_and_calls_return_at_the_ends :
    (let memory := ({} : FlatMemory).poke 0 0x40
      let m : Machine FlatMemory := ⟨{ pc := 0xFFFF, s := 1 }, { memory with nmi := true }⟩
      m.kind = .nmi ∧ m.step.2.step.2.cpu.registers = m.cpu.registers) ∧
    (let flags : Flags := { interrupt := false }
      let m : Machine FlatMemory := ⟨{ pc := 0xFFFF, flags := flags }, {}⟩
      m.step.2.kind = .brk ∧ m.step.2.cpu.pc = 1) ∧
    (let memory := ((({} : FlatMemory).poke 0xFFFD 0x20).poke 0xFFFF 0x03).poke 0x0300 0x60
      let m : Machine FlatMemory := ⟨{ pc := 0xFFFD, s := 0 }, memory⟩
      ∃ last, Relation.ReflTransGen Paired (m, []) (last, []) ∧
        last.cpu.registers = { m.cpu.registers with pc := 0 }) := by
  obtain ⟨hhandlers, hbrk, hwaiting, hcalls⟩ := handlers_and_calls_return
  refine ⟨?_, ?_, ?_⟩
  · intro memory m
    have hentry : m.kind.entry = some (0xFFFA, false) := rfl
    have hlow : m.bus.peek 0xFFFA = 0 :=
      (FlatMemory.peek_poke_of_ne _ (by decide) _).trans (FlatMemory.peek_default _)
    have hhigh : m.bus.peek (0xFFFA + 1) = 0 :=
      (FlatMemory.peek_poke_of_ne _ (by decide) _).trans (FlatMemory.peek_default _)
    have hzero : m.bus.peek 0 = 0x40 := FlatMemory.peek_poke _ _ _
    have hquiet : m.step.2.kind = .instruction := by
      rw [Machine.step_entry hentry]
      rfl
    have hreturn := hhandlers m m.step.2 0xFFFA false hentry (.refl _) hquiet
    rw [hlow, hhigh] at hreturn
    exact ⟨rfl, (hreturn (by decide) hzero).1⟩
  · intro flags m
    have hop : m.bus.peek m.cpu.pc = 0x00 := FlatMemory.peek_default _
    have hnmi : m.step.2.bus.nmi = false := by
      rw [Machine.step_brk rfl hop]
    obtain ⟨hwaits, hregisters⟩ := hbrk m m.step.2 rfl hop (.refl _) rfl
    -- what the step leaves is known by now
    obtain ⟨later, hlater⟩ : ∃ later, m.step.2 = later := ⟨_, rfl⟩
    rw [hlater] at hnmi hwaits hregisters ⊢
    have hflags : later.cpu.flags = flags := congrArg Registers.flags hregisters
    have hkind := (hwaiting later hwaits).1
    rw [hflags, hnmi] at hkind
    have hwrap : (0xFFFF : UInt16) + 2 = 1 := by decide
    exact ⟨hkind, (congrArg Registers.pc hregisters).trans hwrap⟩
  · intro memory m
    have hop : m.bus.peek m.cpu.pc = 0x20 := by
      show memory.peek 0xFFFD = 0x20
      rw [FlatMemory.peek_poke_of_ne _ (by decide), FlatMemory.peek_poke_of_ne _ (by decide),
        FlatMemory.peek_poke]
    have hlow : m.bus.peek (m.cpu.pc + 1) = 0x00 := by
      show memory.peek (0xFFFD + 1) = 0x00
      rw [FlatMemory.peek_poke_of_ne _ (by decide), FlatMemory.peek_poke_of_ne _ (by decide),
        FlatMemory.peek_poke_of_ne _ (by decide), FlatMemory.peek_default]
    have hhigh : m.bus.peek (m.cpu.pc + 2) = 0x03 := by
      show memory.peek (0xFFFD + 2) = 0x03
      rw [FlatMemory.peek_poke_of_ne _ (by decide)]
      exact FlatMemory.peek_poke _ _ _
    have hcode : CallsOnly m.bus 127
        (word (m.bus.peek (m.cpu.pc + 1)) (m.bus.peek (m.cpu.pc + 2))) := by
      rw [hlow, hhigh]
      exact .rts (fun s => ne_stackCell (by decide) s) (FlatMemory.peek_poke _ _ _)
    obtain ⟨last, hrun, hregisters, -⟩ := hcalls m 127 rfl hop (by decide) hcode
    have hwrap : (0xFFFD : UInt16) + 3 = 0 := by decide
    refine ⟨last, hrun, hregisters.trans ?_⟩
    show { m.cpu.registers with pc := 0xFFFD + 3 } = _
    rw [hwrap]

/-- At power-on a BRK waits until a CLI lets it through. Its handler returns behind the CLI. -/
theorem Machine.brk_before_cli {memory : FlatMemory} (hnmi : memory.nmi = false)
    (hirq : memory.irq = false) (hbrk : memory.peek 0 = 0x00) (hcli : memory.peek 2 = 0x58)
    (hhandler : word (memory.peek 0xFFFE) (memory.peek (0xFFFE + 1)) = 0x10)
    (hrti : memory.peek 0x10 = 0x40) {m : Machine FlatMemory} (hm : m = ⟨{}, memory⟩) :
    m.kind = .instruction ∧ m.step.2.step.2.kind = .brk ∧
      0x10 ∉ pushedCells m.step.2.step.2.cpu.s ∧
      m.step.2.step.2.step.2.kind = .instruction ∧
      m.step.2.step.2.step.2.step.2.cpu.pc = 3 := by
  obtain ⟨cells, nmi, irq, stall⟩ := memory
  subst hnmi hirq
  let memory : FlatMemory := ⟨cells, false, false, stall⟩
  let masked : Machine FlatMemory := ⟨{ pc := 0 + 2, pending := .brk }, memory⟩
  let serviced : Machine FlatMemory :=
    ⟨{ pc := 3, pending := .brk, flags := { interrupt := false } }, memory⟩
  have hmasked : (⟨{}, memory⟩ : Machine FlatMemory).step.2 = masked := step_brk rfl hbrk
  have hserviced : masked.step.2 = serviced := by
    have hquiet : masked.kind = .instruction := kind_of_waiting_brk rfl
    have hpc : (0 : UInt16) + 2 + 1 = 3 := by decide
    rw [step_cli hquiet hcli]
    dsimp only [serviced]
    rw [← hpc]
    rfl
  have hentry : serviced.kind.entry = some (0xFFFE, true) := rfl
  have hquiet : serviced.step.2.kind = .instruction := by
    rw [step_entry hentry]
    rfl
  have houtside : 0x10 ∉ pushedCells serviced.cpu.s := by
    show 0x10 ∉ pushedCells 0xFF
    decide
  have hreturn : serviced.step.2.step.2.cpu.registers = serviced.cpu.registers := by
    refine (registers_rti hentry (.refl _) ?_ ?_ hquiet).1 <;> rw [hhandler]
    · exact houtside
    · exact hrti
  have hpc : serviced.step.2.step.2.cpu.pc = 3 := Cpu.pc_of_registers hreturn
  rw [hm, hmasked, hserviced]
  exact ⟨rfl, rfl, houtside, hquiet, hpc⟩

/-- A BRK that is executed while interrupts are disabled is followed by a CLI at address 2, and the
    RTI of its handler does not lead there. -/
theorem masked_brk_returns_elsewhere :
    let memory := ((({} : FlatMemory).poke 0x0002 0x58).poke 0xFFFE 0x10).poke 0x0010 0x40
    let m : Machine FlatMemory := ⟨{}, memory⟩
    let handler := word (memory.peek 0xFFFE) (memory.peek (0xFFFE + 1))
    m.kind = .instruction ∧ memory.peek m.cpu.pc = 0x00 ∧ m.step.2.step.2.kind = .brk ∧
      handler ∉ pushedCells m.step.2.step.2.cpu.s ∧ memory.peek handler = 0x40 ∧
      m.step.2.step.2.step.2.kind = .instruction ∧
      m.step.2.step.2.step.2.step.2.cpu.pc ≠ m.cpu.pc + 2 := by
  intro memory m handler
  have hbrk : memory.peek 0 = 0x00 := by
    rw [FlatMemory.peek_poke_of_ne _ (by decide), FlatMemory.peek_poke_of_ne _ (by decide),
      FlatMemory.peek_poke_of_ne _ (by decide), FlatMemory.peek_default]
  have hcli : memory.peek 2 = 0x58 := by
    rw [FlatMemory.peek_poke_of_ne _ (by decide), FlatMemory.peek_poke_of_ne _ (by decide),
      FlatMemory.peek_poke]
  have hrti : memory.peek 0x10 = 0x40 := FlatMemory.peek_poke _ _ _
  have hhandler : handler = 0x10 := by
    have hlow : memory.peek 0xFFFE = 0x10 := by
      rw [FlatMemory.peek_poke_of_ne _ (by decide), FlatMemory.peek_poke]
    have hhigh : memory.peek (0xFFFE + 1) = 0x00 := by
      rw [FlatMemory.peek_poke_of_ne _ (by decide), FlatMemory.peek_poke_of_ne _ (by decide),
        FlatMemory.peek_poke_of_ne _ (by decide), FlatMemory.peek_default]
    show word (memory.peek 0xFFFE) (memory.peek (0xFFFE + 1)) = 0x10
    rw [hlow, hhigh]
    rfl
  have hlines : memory.nmi = false ∧ memory.irq = false := ⟨rfl, rfl⟩
  obtain ⟨hquiet, hserviced, houtside, hquietHandler, hpc⟩ :=
    Machine.brk_before_cli hlines.1 hlines.2 hbrk hcli hhandler hrti
      (show m = ⟨{}, memory⟩ from rfl)
  rw [hhandler]
  refine ⟨hquiet, hbrk, hserviced, houtside, hrti, hquietHandler, ?_⟩
  rw [hpc]
  decide

end Nes
