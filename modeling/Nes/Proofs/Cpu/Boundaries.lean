/-
  Instruction boundaries: what a step does, and why.

  Model (read this before the theorems). A step asks the interrupt sources first. The answers, what
  an earlier boundary left in the latch, and the I flag decide what the step does. The CPU keeps one
  latch for all requests, which it raises, withdraws and consumes in different places (`poll`,
  `Cpu.due`, `enter`). Here the decision is one list of cases in order of priority (`Machine.kind`),
  told from the registers as they were before the sources were asked, and `Machine.serve` says what
  is done in each case. `step_eq_serve` says that a step does just that.

  A run is any number of steps. Between two of them anything may happen to the registers and to the
  bus, such as requests, resets, cycles that are counted, and other devices at work
  (`Machine.boundaries`). What a boundary owes to the interrupt sources holds at all of them.
-/
import Nes.Proofs.Cpu.Writes

namespace Nes

/-- What a step does. -/
inductive StepKind
  | reset
  | nmi
  | brk
  | irq
  /-- No interrupt is serviced. -/
  | instruction
deriving DecidableEq

namespace StepKind

/-- What is done when an action is performed. -/
def of : Action → StepKind
  | .reset => reset
  | .interrupt vector software _ =>
    if vector = nmiVector then nmi else if software then brk else irq
  | .skip _ _ | .execute _ _ _ _ _ => instruction

/-- The action of an interrupt. -/
def action : StepKind → Option Action
  | reset => some .reset
  | nmi => some (.interrupt 0xFFFA false 7)
  | brk => some (.interrupt 0xFFFE true 0)
  | irq => some (.interrupt 0xFFFE false 7)
  | instruction => none

/-- The vector through which a handler is entered, and the B bit of the pushed status byte. -/
def entry : StepKind → Option (UInt16 × Bool)
  | nmi => some (0xFFFA, false)
  | brk => some (0xFFFE, true)
  | irq => some (0xFFFE, false)
  | reset | instruction => none

end StepKind

namespace Machine

variable {σ : Type} [Bus σ]

/-! ## The decision -/

/-- The NMI latch as the next step finds it. -/
def nmiEdge (m : Machine σ) : Bool := (Bus.takeNmi m.bus).1

/-- The machine once the NMI latch is taken. -/
def asked (m : Machine σ) : Machine σ := ⟨m.cpu, (Bus.takeNmi m.bus).2⟩

/-- The level of the IRQ line as the next step finds it. -/
def irqLevel (m : Machine σ) : Bool := Bus.irq m.asked.bus

/-- What the next step does, in order of priority. -/
def kind (m : Machine σ) : StepKind :=
  if m.cpu.pending = .reset then .reset
  else if m.nmiEdge = true ∨ m.cpu.pending = .nmi then .nmi
  else if m.cpu.pending = .brk ∧ m.cpu.flags.interrupt = false then .brk
  else if m.cpu.pending ≠ .brk ∧ m.irqLevel = true ∧ m.cpu.flags.interrupt = false then .irq
  else .instruction

/-- What waits while an instruction is executed: a BRK that is masked, or else the IRQ line as it
    is now. -/
def latched (m : Machine σ) : Interrupt :=
  if m.cpu.pending = .brk then .brk else if m.irqLevel then .irq else .none

/-- The machine as an instruction finds it. -/
def ready (m : Machine σ) : Machine σ := m.asked.mapCpu fun cpu => { cpu with pending := m.latched }

/-- Fetches the opcode at the program counter, and executes or skips it. -/
def instruct (m : Machine σ) : Nat × Machine σ :=
  let (opcode, m) := m.fetch
  let instruction := Instruction.decode opcode
  if instruction.mnemonic.supported then
    let ((operand, crossed), m) := m.operand instruction.mode
    let taken := m.cpu.flags.branches instruction.mnemonic
    (instruction.timing.cost crossed taken, m.execute instruction.mnemonic operand)
  else (20, m.mapCpu fun cpu => { cpu with reported := cpu.reported.insert opcode })

/-- The cycles and the machine after each kind of step. -/
def serve (m : Machine σ) : StepKind → Nat × Machine σ
  | .reset => (7, m.asked.reset .soft)
  | .nmi => (7, m.asked.enter 0xFFFA false)
  | .brk => (0, m.asked.enter 0xFFFE true)
  | .irq => (7, m.asked.enter 0xFFFE false)
  | .instruction => m.ready.instruct

/-! ## The decision is the CPU's -/

section
variable (m : Machine σ)

/-- What waits once the interrupt sources were asked. -/
def waiting : Interrupt :=
  if m.cpu.pending = .reset then .reset
  else if m.nmiEdge = true ∨ m.cpu.pending = .nmi then .nmi
  else m.latched

theorem poll_eq : m.poll = m.asked.mapCpu fun cpu => { cpu with pending := m.waiting } := by
  obtain ⟨cpu, bus⟩ := m
  obtain ⟨a, x, y, s, flags, pc, pending, cycles, line, reported⟩ := cpu
  unfold poll waiting latched irqLevel nmiEdge asked mapCpu
  dsimp only
  cases (Bus.takeNmi bus).1 <;> cases Bus.irq (Bus.takeNmi bus).2 <;> cases pending <;> rfl

theorem due_poll : m.poll.cpu.due = m.kind.action := by
  rw [poll_eq]
  show Cpu.due { m.cpu with pending := m.waiting } = m.kind.action
  unfold Cpu.due waiting kind latched
  cases m.cpu.pending <;> cases m.nmiEdge <;> cases m.irqLevel <;>
    cases m.cpu.flags.interrupt <;> rfl

theorem poll_of_instruction {m : Machine σ} (h : m.kind = .instruction) : m.poll = m.ready := by
  rw [poll_eq, ready]
  have hwaiting : m.waiting = m.latched := by
    unfold kind at h
    unfold waiting
    split at h
    · cases h
    · next hreset =>
      split at h
      · cases h
      · next hnmi => rw [if_neg hreset, if_neg hnmi]
  rw [hwaiting]

theorem next_eq : m.next = match m.kind.action with
    | some action => (action, m.poll)
    | none =>
      let (opcode, fetched) := m.poll.fetch
      let instruction := Instruction.decode opcode
      if instruction.mnemonic.supported then
        let ((operand, crossed), found) := fetched.operand instruction.mode
        (.execute m.poll.cpu.pc opcode instruction operand crossed, found)
      else (.skip m.poll.cpu.pc opcode, fetched) := by
  rw [← due_poll]
  rfl

theorem of_next : StepKind.of m.next.1 = m.kind := by
  rw [next_eq]
  cases m.kind with
  | reset | nmi | brk | irq => rfl
  | instruction =>
    dsimp only [StepKind.action]
    generalize Instruction.decode m.poll.fetch.1 = instruction
    split <;> rfl

/-- A step does what its kind says. -/
theorem step_eq_serve : m.step = m.serve m.kind := by
  unfold step
  rw [next_eq]
  cases hkind : m.kind with
  | reset | nmi | brk | irq =>
    rw [poll_eq]
    rfl
  | instruction =>
    rw [poll_of_instruction hkind]
    dsimp only [StepKind.action, serve, instruct]
    generalize Instruction.decode m.ready.fetch.1 = instruction
    split <;> rfl

/-- A step that services an NMI, BRK or IRQ enters its handler. -/
theorem step_of_entry {m : Machine σ} {vector : UInt16} {brk : Bool}
    (h : m.kind.entry = some (vector, brk)) : m.step.2 = m.asked.enter vector brk := by
  rw [step_eq_serve]
  cases hkind : m.kind with
  | nmi | brk | irq =>
    rw [hkind] at h
    cases h
    rfl
  | reset | instruction =>
    rw [hkind] at h
    cases h

/-- An instruction that is emulated finds its operand and is executed. -/
theorem instruct_supported {m : Machine σ} {instruction : Instruction}
    (hdecode : Instruction.decode m.fetch.1 = instruction)
    (supported : instruction.mnemonic.supported = true) :
    m.instruct.2 = (m.fetch.2.operand instruction.mode).2.execute instruction.mnemonic
      (m.fetch.2.operand instruction.mode).1.1 := by
  unfold instruct
  dsimp only
  rw [hdecode, if_pos supported]

/-- An opcode that is not emulated is skipped: nothing but the opcode is read, and nothing but the
    program counter and the list of opcodes that were met changes. -/
theorem instruct_skipped {m : Machine σ} {instruction : Instruction}
    (hdecode : Instruction.decode m.fetch.1 = instruction)
    (skipped : instruction.mnemonic.supported = false) :
    m.instruct = (20, m.fetch.2.mapCpu fun cpu =>
      { cpu with reported := cpu.reported.insert m.fetch.1 }) := by
  unfold instruct
  dsimp only
  rw [hdecode, if_neg (ne_true_of_eq_false skipped)]

end

/-! ## Accesses -/

/-- The accesses of a step to the bus, the first one first. -/
def stepAccesses (m : Machine σ) : List Access := m.recorded.step.2.bus.accesses.reverse

theorem kind_recorded (m : Machine σ) : m.recorded.kind = m.kind := rfl

/-- Entering a handler pushes the program counter and the status byte, and reads the vector. -/
theorem accesses_enter (r : Machine (Recorded σ)) (vector : UInt16) (brk : Bool) :
    ∃ lo hi, (r.enter vector brk).bus.accesses =
        .read (vector + 1) hi :: .read vector lo ::
          .write (stackCell (r.cpu.s - 2)) (r.cpu.flags.pushed brk) ::
          .write (stackCell (r.cpu.s - 1)) (lowByte r.cpu.pc) ::
          .write (stackCell r.cpu.s) (highByte r.cpu.pc) :: r.bus.accesses ∧
      (r.enter vector brk).cpu = { r.cpu with
        pc := word lo hi, s := r.cpu.s - 3
        flags := { r.cpu.flags with interrupt := true }, pending := .none } := by
  have htwo : r.cpu.s - 2 = r.cpu.s - 1 - 1 := by grind
  have hthree : r.cpu.s - 3 = r.cpu.s - 1 - 1 - 1 := by grind
  rw [htwo, hthree]
  exact ⟨_, _, rfl, rfl⟩

/-- What a step accesses, and what becomes of the registers, when a handler is entered. -/
theorem accesses_of_entry {m : Machine σ} {vector : UInt16} {brk : Bool}
    (h : m.kind.entry = some (vector, brk)) :
    ∃ lo hi, m.stepAccesses =
        [.write (stackCell m.cpu.s) (highByte m.cpu.pc),
          .write (stackCell (m.cpu.s - 1)) (lowByte m.cpu.pc),
          .write (stackCell (m.cpu.s - 2)) (m.cpu.flags.pushed brk),
          .read vector lo, .read (vector + 1) hi] ∧
      m.step.2.cpu = { m.cpu with
        pc := word lo hi, s := m.cpu.s - 3
        flags := { m.cpu.flags with interrupt := true }, pending := .none } := by
  have hrecorded : m.recorded.step.2 = m.recorded.asked.enter vector brk := step_of_entry h
  obtain ⟨lo, hi, haccesses, hcpu⟩ := accesses_enter m.recorded.asked vector brk
  refine ⟨lo, hi, ?_, ?_⟩
  · unfold stepAccesses
    rw [hrecorded, haccesses]
    rfl
  · rw [step_of_entry h]
    exact hcpu

/-! ## Runs -/

/-- A step, with the machine before it and after it. -/
structure Boundary (σ : Type) where
  before : Machine σ
  kind : StepKind
  /-- The accesses to the bus, the first one first. -/
  accesses : List Access
  after : Machine σ

/-- The next step. What kind it is of is read off what is done. -/
def boundary (m : Machine σ) : Boundary σ :=
  ⟨m, StepKind.of m.next.1, m.stepAccesses, m.step.2⟩

/-- The steps of a run. Before each of them the machine may change in any way. -/
def boundaries (m : Machine σ) : List (Machine σ → Machine σ) → List (Boundary σ)
  | [] => []
  | change :: changes => (change m).boundary :: (change m).step.2.boundaries changes

/-- What all boundaries have in common, those of a run have. -/
theorem forall_boundaries {P : Boundary σ → Prop} (h : ∀ m : Machine σ, P m.boundary)
    (m : Machine σ) (changes : List (Machine σ → Machine σ)) : ∀ b ∈ m.boundaries changes, P b := by
  induction changes generalizing m with
  | nil => exact fun b hb => nomatch hb
  | cons change changes ih => exact List.forall_mem_cons.mpr ⟨h (change m), ih _⟩

/-- An NMI edge is serviced at once, unless a reset is. -/
theorem kind_of_edge {m : Machine σ} (h : m.nmiEdge = true) :
    m.kind = .nmi ∨ m.cpu.pending = .reset ∧ m.kind = .reset := by
  by_cases hreset : m.cpu.pending = .reset
  · exact .inr ⟨hreset, if_pos hreset⟩
  · refine .inl ?_
    unfold kind
    rw [if_neg hreset, if_pos (.inl h)]

/-- An IRQ is serviced only if the line is held and not masked. -/
theorem irq_of_kind {m : Machine σ} (h : m.kind = .irq) :
    m.cpu.flags.interrupt = false ∧ m.irqLevel = true := by
  unfold kind at h
  split at h
  · cases h
  · split at h
    · cases h
    · split at h
      · cases h
      · split at h
        · next hirq => exact ⟨hirq.2.2, hirq.2.1⟩
        · cases h

/-- A step services a reset that waits, or else an NMI, or else a BRK that is not masked, or else
    the IRQ line if it is held and not masked and no BRK waits, or else executes one instruction. At
    all boundaries of a run an NMI edge is serviced in the step that finds it, unless a reset is; an
    IRQ only while the line is held and the I flag is clear; and to service an NMI, BRK or IRQ is to
    push the program counter and the status byte, to go where the vector leads, to set the I flag,
    and to leave nothing waiting. -/
theorem services_by_priority (m : Machine σ) (changes : List (Machine σ → Machine σ)) :
    (StepKind.of m.next.1 = m.kind ∧ m.step = m.serve m.kind ∧
      m.recorded.step.2.unrecorded = m.step.2) ∧
    ∀ b ∈ m.boundaries changes,
      (b.before.nmiEdge = true → b.kind = .nmi ∨ b.before.cpu.pending = .reset ∧ b.kind = .reset) ∧
      (b.kind = .irq → b.before.cpu.flags.interrupt = false ∧ b.before.irqLevel = true) ∧
      ∀ vector brk, b.kind.entry = some (vector, brk) →
        let before := b.before.cpu
        ∃ lo hi, b.accesses =
            [.write (stackCell before.s) (highByte before.pc),
              .write (stackCell (before.s - 1)) (lowByte before.pc),
              .write (stackCell (before.s - 2)) (before.flags.pushed brk),
              .read vector lo, .read (vector + 1) hi] ∧
          b.after.cpu = { before with
            pc := word lo hi, s := before.s - 3
            flags := { before.flags with interrupt := true }, pending := .none } := by
  refine ⟨⟨of_next m, step_eq_serve m, (step_unrecorded m.recorded).2⟩, ?_⟩
  refine forall_boundaries (fun m => ?_) m changes
  have hkind : m.boundary.kind = m.kind := of_next m
  rw [hkind]
  exact ⟨kind_of_edge, irq_of_kind, fun vector brk => accesses_of_entry⟩

end Machine
end Nes
