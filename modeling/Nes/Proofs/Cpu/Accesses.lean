/-
  What a CPU can do to what it is wired to: it reads, it writes, it takes the NMI edge, and it
  takes the cycles it has to wait.

  `Bus.Access` is one of these four and `Bus.Run` any number of them. Whatever the CPU does, up
  to a whole scanline (`run_runLine`), leaves the bus in a state that a sequence of accesses
  leads to. So an invariant of the bus holds after every scanline as soon as the four accesses
  keep it (`Bus.Run.keeps`).

  `Bus.Trail` counts the writes between two instruction boundaries: those to the stack, and all
  others. `Machine.Work` is a piece of the CPU's work: such a trail on the bus, and registers
  whose count of cycles stands still. Everything but the reset button is one: no step pushes more
  than three bytes or stores more than one (`trail_step`, `work_step`).
-/
import Mathlib.Logic.Relation
import Nes.Cpu.Step

namespace Nes

namespace Bus

variable {σ : Type} [Bus σ]

/-- One access of a CPU to its bus. -/
inductive Access : σ → σ → Prop
  | read (bus : σ) (addr : UInt16) : Access bus (Bus.read bus addr).2
  | write (bus : σ) (addr : UInt16) (value : UInt8) : Access bus (Bus.write bus addr value)
  | takeNmi (bus : σ) : Access bus (Bus.takeNmi bus).2
  | takeStall (bus : σ) : Access bus (Bus.takeStall bus).2

/-- Any number of accesses, one after the other. -/
def Run : σ → σ → Prop := Relation.ReflTransGen Access

namespace Run

theorem refl (bus : σ) : Run bus bus := Relation.ReflTransGen.refl

theorem trans {a b c : σ} (h₁ : Run a b) (h₂ : Run b c) : Run a c :=
  Relation.ReflTransGen.trans h₁ h₂

theorem one {a b : σ} (h : Access a b) : Run a b := Relation.ReflTransGen.single h

/-- What every access keeps, a run keeps. -/
theorem keeps {P : σ → Prop} (step : ∀ {a b : σ}, Access a b → P a → P b) {a b : σ}
    (h : Run a b) (ha : P a) : P b := by
  induction h with
  | refl => exact ha
  | tail _ access ih => exact step access ih

end Run

/-- Accesses between two instruction boundaries, of which at most `pushes` write to the stack
    page and at most `stores` write elsewhere. -/
inductive Trail (start : σ) : (pushes stores : Nat) → σ → Prop
  | refl {pushes stores : Nat} : Trail start pushes stores start
  | read {pushes stores : Nat} {bus : σ} (h : Trail start pushes stores bus) (addr : UInt16) :
      Trail start pushes stores (Bus.read bus addr).2
  | takeNmi {pushes stores : Nat} {bus : σ} (h : Trail start pushes stores bus) :
      Trail start pushes stores (Bus.takeNmi bus).2
  | push {pushes stores : Nat} {bus : σ} (h : Trail start pushes stores bus) (s value : UInt8) :
      Trail start (pushes + 1) stores (Bus.write bus (stackPage + s.toUInt16) value)
  | store {pushes stores : Nat} {bus : σ} (h : Trail start pushes stores bus) (addr : UInt16)
      (value : UInt8) : Trail start pushes (stores + 1) (Bus.write bus addr value)

namespace Trail

variable {pushes stores : Nat} {a b : σ}

/-- The bounds may be wider than needed. -/
theorem mono (h : Trail a pushes stores b) {pushes' stores' : Nat} (hpushes : pushes ≤ pushes')
    (hstores : stores ≤ stores') : Trail a pushes' stores' b := by
  induction h generalizing pushes' stores' with
  | refl => exact .refl
  | read _ addr ih => exact (ih hpushes hstores).read addr
  | takeNmi _ ih => exact (ih hpushes hstores).takeNmi
  | push _ s value ih =>
    obtain ⟨pushes', rfl⟩ := Nat.exists_eq_add_of_le' (Nat.le_of_add_left_le hpushes)
    exact (ih (by omega) hstores).push s value
  | store _ addr value ih =>
    obtain ⟨stores', rfl⟩ := Nat.exists_eq_add_of_le' (Nat.le_of_add_left_le hstores)
    exact (ih hpushes (by omega)).store addr value

theorem run (h : Trail a pushes stores b) : Run a b := by
  induction h with
  | refl => exact .refl a
  | read _ addr ih => exact ih.trans (.one (.read _ addr))
  | takeNmi _ ih => exact ih.trans (.one (.takeNmi _))
  | push _ s value ih => exact ih.trans (.one (.write _ _ value))
  | store _ addr value ih => exact ih.trans (.one (.write _ addr value))

end Trail
end Bus

namespace Machine

variable {σ : Type} [Bus σ]

/-- A piece of work between two instruction boundaries, in which no cycles are counted and nobody
    asks for a reset. -/
structure Work (start : Machine σ) (pushes stores : Nat) (m : Machine σ) : Prop where
  trail : Bus.Trail start.bus pushes stores m.bus
  cycles_eq : m.cpu.cycles = start.cpu.cycles
  noReset : start.cpu.pending ≠ .reset → m.cpu.pending ≠ .reset

section
variable {start m m' : Machine σ} {pushes stores : Nat}

theorem Work.refl (m : Machine σ) : Work m pushes stores m := ⟨.refl, rfl, id⟩

theorem Work.mono (h : Work start pushes stores m) {pushes' stores' : Nat}
    (hpushes : pushes ≤ pushes') (hstores : stores ≤ stores') : Work start pushes' stores' m :=
  ⟨h.trail.mono hpushes hstores, h.cycles_eq, h.noReset⟩

/-- The other registers may change. -/
theorem Work.registers (h : Work start pushes stores m) (hbus : m'.bus = m.bus)
    (hcycles : m'.cpu.cycles = m.cpu.cycles) (hpending : m'.cpu.pending = m.cpu.pending) :
    Work start pushes stores m' := by
  refine ⟨?_, hcycles.trans h.cycles_eq, fun hm => ?_⟩
  · rw [hbus]
    exact h.trail
  · rw [hpending]
    exact h.noReset hm

/-! ## Single accesses and the stack -/

theorem work_read (h : Work start pushes stores m) (addr : UInt16) :
    Work start pushes stores (m.read addr).2 :=
  ⟨h.trail.read addr, h.cycles_eq, h.noReset⟩

theorem work_write (h : Work start pushes stores m) (addr : UInt16) (value : UInt8) :
    Work start pushes (stores + 1) (m.write addr value) :=
  ⟨h.trail.store addr value, h.cycles_eq, h.noReset⟩

theorem work_readWord (h : Work start pushes stores m) (addr : UInt16) :
    Work start pushes stores (m.readWord addr).2 :=
  work_read (work_read h addr) _

theorem work_readZeroPageWord (h : Work start pushes stores m) (pointer : UInt8) :
    Work start pushes stores (m.readZeroPageWord pointer).2 :=
  work_read (work_read h _) _

theorem work_fetch (h : Work start pushes stores m) : Work start pushes stores m.fetch.2 :=
  ⟨h.trail.read m.cpu.pc, h.cycles_eq, h.noReset⟩

theorem work_fetchWord (h : Work start pushes stores m) :
    Work start pushes stores m.fetchWord.2 :=
  work_fetch (work_fetch h)

theorem work_push (h : Work start pushes stores m) (value : UInt8) :
    Work start (pushes + 1) stores (m.push value) :=
  ⟨h.trail.push m.cpu.s value, h.cycles_eq, h.noReset⟩

theorem work_pull (h : Work start pushes stores m) : Work start pushes stores m.pull.2 :=
  ⟨h.trail.read _, h.cycles_eq, h.noReset⟩

theorem work_pushWord (h : Work start pushes stores m) (w : UInt16) :
    Work start (pushes + 2) stores (m.pushWord w) :=
  work_push (work_push h _) _

theorem work_pullWord (h : Work start pushes stores m) :
    Work start pushes stores m.pullWord.2 :=
  work_pull (work_pull h)

theorem run_reset (m : Machine σ) (kind : ResetKind) : Bus.Run m.bus (m.reset kind).bus := by
  have hnone : Work m 0 0 m := .refl m
  exact (work_readWord hnone resetVector).trail.run

/-! ## Instructions -/

theorem work_operand (h : Work start pushes stores m) (mode : Mode) :
    Work start pushes stores (m.operand mode).2 := by
  cases mode with
  | implied | accumulator => exact h
  | immediate | zeroPage | zeroPageX | zeroPageY | relative => exact work_fetch h
  | absolute | absoluteX | absoluteY => exact work_fetchWord h
  | indirect => exact work_read (work_read (work_fetchWord h) _) _
  | indirectX | indirectY => exact work_readZeroPageWord (work_fetch h) _

theorem work_load (h : Work start pushes stores m) (operand : Operand) :
    Work start pushes stores (m.load operand).2 := by
  cases operand with
  | address addr => exact work_read h addr
  | immediate | accumulator | implied => exact h

theorem work_store (h : Work start pushes stores m) (value : UInt8) (operand : Operand) :
    Work start pushes (stores + 1) (m.store value operand) := by
  have slack : Work start pushes (stores + 1) m := h.mono (Nat.le_refl _) (Nat.le_succ _)
  cases operand with
  | address addr => exact work_write h addr value
  | accumulator => exact slack.registers rfl rfl rfl
  | immediate | implied => exact slack

theorem work_modify (h : Work start pushes stores m) (operand : Operand)
    (f : Flags → UInt8 → UInt8 × Flags) :
    Work start pushes (stores + 1) (m.modify operand f).2 := by
  have hflags : Work start pushes stores ((m.load operand).2.mapCpu fun cpu =>
      { cpu with flags := (f cpu.flags (m.load operand).1).2 }) :=
    (work_load h operand).registers rfl rfl rfl
  exact work_store hflags _ operand

theorem work_branch (h : Work start pushes stores m) (mnemonic : Mnemonic) (operand : Operand) :
    Work start pushes stores (m.branch mnemonic operand) := by
  unfold branch
  split
  · exact h.registers rfl rfl rfl
  · exact h

/-- Asking for an interrupt of another kind is no request for a reset. -/
theorem request_ne_reset {cpu : Cpu} {kind : Interrupt} (h : cpu.pending ≠ .reset)
    (hkind : kind ≠ .reset) : (cpu.request kind).pending ≠ .reset := by
  unfold Cpu.request
  split
  · exact hkind
  · exact h

theorem request_cycles (cpu : Cpu) (kind : Interrupt) :
    (cpu.request kind).cycles = cpu.cycles := by
  unfold Cpu.request
  split <;> rfl

theorem work_brk (h : Work start pushes stores m) (operand : Operand) :
    Work start pushes stores (m.execute .brk operand) := by
  refine ⟨h.trail, ?_, fun hm => ?_⟩
  · exact (request_cycles { m.cpu with pc := m.cpu.pc + 1 } .brk).trans h.cycles_eq
  · have hpending : ({ m.cpu with pc := m.cpu.pc + 1 } : Cpu).pending ≠ .reset := h.noReset hm
    exact request_ne_reset hpending (by decide)

/-- An instruction pushes at most two bytes and stores at most one. -/
theorem work_execute (h : Work start pushes stores m) (mnemonic : Mnemonic) (operand : Operand) :
    Work start (pushes + 2) (stores + 1) (m.execute mnemonic operand) := by
  have noStore : Work start pushes (stores + 1) m := h.mono (by omega) (by omega)
  have onePush : Work start (pushes + 1) (stores + 1) m := h.mono (by omega) (by omega)
  have noPush : Work start (pushes + 2) stores m := h.mono (by omega) (by omega)
  have slack : Work start (pushes + 2) (stores + 1) m := h.mono (by omega) (by omega)
  cases mnemonic with
  | lda | ldx | ldy | lax | and | eor | ora | bit | adc | sbc | cmp | cpx | cpy | anc | asr | arr
  | sbx => exact (work_load slack operand).registers rfl rfl rfl
  | sta | stx | sty | sax => exact work_store noPush _ operand
  | asl | lsr | rol | ror | inc | dec => exact work_modify noPush operand _
  | slo => exact (work_modify noPush operand Flags.asl).registers rfl rfl rfl
  | rla => exact (work_modify noPush operand Flags.rol).registers rfl rfl rfl
  | sre => exact (work_modify noPush operand Flags.lsr).registers rfl rfl rfl
  | rra => exact (work_modify noPush operand Flags.ror).registers rfl rfl rfl
  | dcp =>
    exact (work_modify noPush operand fun flags value => (value - 1, flags)).registers rfl rfl rfl
  | isc =>
    exact (work_modify noPush operand fun flags value => (value + 1, flags)).registers rfl rfl rfl
  | pha | php => exact work_push onePush _
  | pla | plp => exact (work_pull slack).registers rfl rfl rfl
  | jsr => exact (work_pushWord noStore _).registers rfl rfl rfl
  | rts => exact (work_pullWord slack).registers rfl rfl rfl
  | rti =>
    have hflags : Work start (pushes + 2) (stores + 1) (m.pull.2.mapCpu fun cpu =>
        { cpu with flags := Flags.pulled m.pull.1 }) := (work_pull slack).registers rfl rfl rfl
    exact (work_pullWord hflags).registers rfl rfl rfl
  | bcc | bcs | bne | beq | bpl | bmi | bvc | bvs => exact work_branch slack _ operand
  | nop =>
    cases operand with
    | address addr => exact work_read slack addr
    | immediate | accumulator | implied => exact slack
  | brk => exact work_brk slack operand
  -- all others work on registers and flags only
  | tax | tay | tsx | txa | txs | tya | inx | iny | dex | dey | jmp | clc | cld | cli | clv | sec
  | sed | sei => exact slack.registers rfl rfl rfl
  | jam | las | sha | shx | shy | shs | xaa => exact slack

/-! ## Instruction boundaries and scanlines -/

theorem work_poll (h : Work start pushes stores m) : Work start pushes stores m.poll := by
  -- the registers once the NMI edge is taken
  let cpu := if (Bus.takeNmi m.bus).1 then m.cpu.request .nmi else m.cpu
  have hcycles : cpu.cycles = start.cpu.cycles := by
    dsimp only [cpu]
    split
    · exact (request_cycles m.cpu .nmi).trans h.cycles_eq
    · exact h.cycles_eq
  have hpending : start.cpu.pending ≠ .reset → cpu.pending ≠ .reset := by
    intro hstart
    dsimp only [cpu]
    split
    · exact request_ne_reset (h.noReset hstart) (by decide)
    · exact h.noReset hstart
  have hpoll : m.poll.cpu = if Bus.irq (Bus.takeNmi m.bus).2 then cpu.request .irq
      else if cpu.pending = .irq then { cpu with pending := .none } else cpu := rfl
  clear_value cpu
  refine ⟨h.trail.takeNmi, ?_, fun hstart => ?_⟩
  · rw [hpoll]
    split
    · exact (request_cycles cpu .irq).trans hcycles
    · split <;> exact hcycles
  · rw [hpoll]
    split
    · exact request_ne_reset (hpending hstart) (by decide)
    · split
      · simp
      · exact hpending hstart

theorem work_next (h : Work start pushes stores m) : Work start pushes stores m.next.2 := by
  have hpoll := work_poll h
  unfold next
  dsimp only
  split
  · exact hpoll
  · -- which of the 256 instructions it is does not matter here
    generalize Instruction.decode m.poll.fetch.1 = instruction
    split
    · exact work_operand (work_fetch hpoll) instruction.mode
    · exact work_fetch hpoll

theorem work_enter (h : Work start pushes stores m) (vector : UInt16) (brk : Bool) :
    Work start (pushes + 3) stores (m.enter vector brk) := by
  have hpc := work_pushWord h m.cpu.pc
  have hflags := work_push hpc ((m.pushWord m.cpu.pc).cpu.flags.pushed brk)
  have hvector := work_readWord hflags vector
  exact ⟨hvector.trail, hvector.cycles_eq, fun _ h => nomatch h⟩

theorem work_perform (h : Work start pushes stores m) {action : Action}
    (noReset : action ≠ .reset) : Work start (pushes + 3) (stores + 1) (m.perform action).2 := by
  have slack : Work start (pushes + 3) (stores + 1) m := h.mono (by omega) (by omega)
  cases action with
  | reset => exact absurd rfl noReset
  | interrupt vector brk cycles => exact work_enter (h.mono (by omega) (by omega)) vector brk
  | skip => exact slack.registers rfl rfl rfl
  | execute _ _ instruction operand _ =>
    exact (work_execute h instruction.mnemonic operand).mono (by omega) (by omega)

end

/-- No step pushes more than three bytes or stores more than one. -/
theorem trail_step (m : Machine σ) : Bus.Trail m.bus 3 1 m.step.2.bus := by
  have hnext : Work m 0 0 m.next.2 := work_next (.refl m)
  unfold step
  dsimp only
  cases haction : m.next.1 with
  | reset => exact (work_readWord hnext resetVector).trail.mono (by decide) (by decide)
  | interrupt | skip | execute => exact (work_perform hnext (by simp)).trail

theorem due_ne_reset {cpu : Cpu} (h : cpu.pending ≠ .reset) : cpu.due ≠ some .reset := by
  unfold Cpu.due
  cases hpending : cpu.pending with
  | reset => exact absurd hpending h
  | none | nmi => simp
  | irq | brk => dsimp only; split <;> simp

/-- Unless a reset waits, a step counts no cycles, and none waits after it. -/
theorem work_step (m : Machine σ) (h : m.cpu.pending ≠ .reset) : Work m 3 1 m.step.2 := by
  have haction : m.next.1 ≠ .reset := by
    have hpoll : Work m 0 0 m.poll := work_poll (.refl m)
    have hdue := due_ne_reset (hpoll.noReset h)
    unfold next
    dsimp only
    split
    · next action heq =>
      intro hreset
      exact hdue (hreset ▸ heq)
    · generalize Instruction.decode m.poll.fetch.1 = instruction
      split <;> exact fun h => nomatch h
  exact work_perform (work_next (.refl m)) haction

theorem run_charge (m : Machine σ) (spent : Nat) : Bus.Run m.bus (m.charge spent).bus :=
  .one (.takeStall m.bus)

theorem run_spend (m : Machine σ) (fuel : Nat) : Bus.Run m.bus (m.spend fuel).bus := by
  induction fuel generalizing m with
  | zero => exact .refl _
  | succ fuel ih =>
    unfold spend
    split
    · exact ((trail_step m).run.trans (run_charge _ _)).trans (ih _)
    · exact .refl _

/-- Running the CPU for a scanline is a sequence of accesses to its bus. -/
theorem run_runLine (m : Machine σ) (line : UInt16) : Bus.Run m.bus (m.runLine line).bus :=
  run_spend (m.beginLine line) lineSteps

end Machine
end Nes
