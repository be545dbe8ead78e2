/-
  The clock of the CPU: a scanline is a loop of laps, and each lap is a step with the cycles that
  the bus makes the CPU wait after it.

  `Machine.Laps` is that loop without a bound on the laps. A step is free only when it enters a
  BRK handler, and then it masks the next BRK; all other steps take two cycles at least
  (`step_cost`). So the loop always ends, after at most `lineSteps` laps (`exists_laps`), which
  makes `runLine` its result (`Laps.runLine_eq`).

  Unless the CPU is reset, a lap adds to the count of cycles what it took (`Laps.total`), and a
  scanline takes off the cycles of a line: so over any number of scanlines the cycles that were
  taken and those of the lines differ by the surplus alone (`Scanlines.total`).
-/
import Mathlib.Algebra.BigOperators.Group.List.Basic
import Mathlib.Algebra.GroupWithZero.Nat
import Mathlib.Data.List.Chain
import Nes.Proofs.Cpu.Accesses

namespace Nes

/-- The largest surplus that a scanline can leave, with the longest step and the longest wait. -/
def surplusLimit : Nat := 532

/-- The longest wait for a bus that does at most one sprite DMA in a step. -/
def waitLimit : Nat := 513

/-- One pass through the loop of a scanline. -/
structure Lap where
  /-- The count of cycles that the step leaves. -/
  count : Nat
  /-- What the step took. -/
  spent : Nat
  /-- What the CPU had to wait for. -/
  stall : Nat
deriving DecidableEq

/-- All the cycles that a lap took. -/
def Lap.cycles (lap : Lap) : Nat := lap.spent + lap.stall

/-- What happens before a scanline starts: whatever else is on the bus goes on, and interrupts
    may be requested. -/
structure Turnover (σ : Type) where
  line : UInt16
  bus : σ → σ
  requests : List Interrupt := []

/-- What an instruction costs without the extra cycles. -/
def Timing.base : Timing → Nat
  | fixed cycles | paged cycles | branch cycles => cycles

open Instruction in
/-- What holds of the four quarters of the table holds of all opcodes. -/
theorem Instruction.forall_decode {P : Instruction → Prop}
    (h : ∀ quarter ∈ [quarter0, quarter1, quarter2, quarter3],
      ∀ instruction ∈ quarter.toList, P instruction)
    (opcode : UInt8) : P (decode opcode) := by
  have htable : decode opcode ∈ table := Vector.getElem_mem _
  have hparts : decode opcode ∈ ((quarter0 ++ quarter1) ++ quarter2) ++ quarter3 := htable
  simp only [Vector.mem_append] at hparts
  rcases hparts with ((hmem | hmem) | hmem) | hmem <;>
    exact h _ (by simp) _ (Vector.mem_toList_iff.mpr hmem)

namespace Machine

variable {σ : Type} [Bus σ]

/-- The next lap. -/
def lap (m : Machine σ) : Lap where
  count := m.step.2.cpu.cycles
  spent := m.step.1
  stall := (Bus.takeStall m.step.2.bus).1

/-- What the next lap leaves. -/
def afterLap (m : Machine σ) : Machine σ := m.step.2.charge m.step.1

/-- The loop of a scanline: laps until the cycles of the line are used up. -/
inductive Laps : Machine σ → List Lap → Machine σ → Prop
  | full {m : Machine σ} (h : lineCycles ≤ m.cpu.cycles) : Laps m [] m
  | lap {m last : Machine σ} {laps : List Lap} (h : m.cpu.cycles < lineCycles)
      (rest : Laps m.afterLap laps last) : Laps m (m.lap :: laps) last

/-- The machine when a scanline starts. -/
def turnOver (m : Machine σ) (turnover : Turnover σ) : Machine σ :=
  Machine.beginLine ⟨turnover.requests.foldl Cpu.request m.cpu, turnover.bus m.bus⟩ turnover.line

/-- Scanlines one after the other, with all their laps. -/
inductive Scanlines : Machine σ → List (Turnover σ) → List Lap → Machine σ → Prop
  | nil (m : Machine σ) : Scanlines m [] [] m
  | cons {m mid last : Machine σ} {turnover : Turnover σ} {turnovers : List (Turnover σ)}
      {laps later : List Lap} (line : Laps (m.turnOver turnover) laps mid)
      (rest : Scanlines mid.endLine turnovers later last) :
      Scanlines m (turnover :: turnovers) (laps ++ later) last

/-! ## What a step costs -/

/-- The extra cycles for pages and branches are two at most. -/
theorem cost_le_base (timing : Timing) (crossed taken : Bool) :
    timing.base ≤ timing.cost crossed taken ∧ timing.cost crossed taken ≤ timing.base + 2 := by
  have hcrossed : crossed.toNat ≤ 1 := Bool.toNat_le crossed
  cases timing with
  | fixed cycles => simp [Timing.cost, Timing.base]
  | paged cycles =>
    simp only [Timing.cost, Timing.base]
    omega
  | branch cycles =>
    simp only [Timing.cost, Timing.base]
    split <;> omega

/-- Every instruction that is emulated takes two cycles at least and eight at most without the
    extra ones. -/
theorem base_decode (opcode : UInt8) :
    (Instruction.decode opcode).mnemonic.supported = true →
      2 ≤ (Instruction.decode opcode).timing.base ∧
        (Instruction.decode opcode).timing.base ≤ 8 := by
  revert opcode
  refine Instruction.forall_decode (P := fun instruction => instruction.mnemonic.supported = true →
    2 ≤ instruction.timing.base ∧ instruction.timing.base ≤ 8) ?_
  decide +kernel

theorem cost_supported (opcode : UInt8)
    (supported : (Instruction.decode opcode).mnemonic.supported = true) (crossed taken : Bool) :
    2 ≤ (Instruction.decode opcode).timing.cost crossed taken ∧
      (Instruction.decode opcode).timing.cost crossed taken ≤ 20 := by
  have hbase := base_decode opcode supported
  have hextra := cost_le_base (Instruction.decode opcode).timing crossed taken
  generalize Instruction.decode opcode = instruction at hbase hextra ⊢
  omega

theorem request_flags (cpu : Cpu) (kind : Interrupt) : (cpu.request kind).flags = cpu.flags := by
  unfold Cpu.request
  split <;> rfl

theorem request_eq_brk {cpu : Cpu} {kind : Interrupt} (hkind : kind ≠ .brk)
    (h : (cpu.request kind).pending = .brk) : cpu.pending = .brk := by
  unfold Cpu.request at h
  split at h
  · exact absurd h hkind
  · exact h

/-- Asking the interrupt sources changes no flag, and a BRK that waits then has waited before. -/
theorem poll_brk (m : Machine σ) :
    m.poll.cpu.flags = m.cpu.flags ∧ (m.poll.cpu.pending = .brk → m.cpu.pending = .brk) := by
  let cpu := if (Bus.takeNmi m.bus).1 then m.cpu.request .nmi else m.cpu
  have hcpu : cpu.flags = m.cpu.flags ∧ (cpu.pending = .brk → m.cpu.pending = .brk) := by
    dsimp only [cpu]
    split
    · exact ⟨request_flags _ _, request_eq_brk (by decide)⟩
    · exact ⟨rfl, id⟩
  have hpoll : m.poll.cpu = if Bus.irq (Bus.takeNmi m.bus).2 then cpu.request .irq
      else if cpu.pending = .irq then { cpu with pending := .none } else cpu := rfl
  clear_value cpu
  rw [hpoll]
  split
  · refine ⟨(request_flags _ _).trans hcpu.1, fun h => hcpu.2 ?_⟩
    exact request_eq_brk (by decide) h
  · split
    · exact ⟨hcpu.1, fun h => nomatch h⟩
    · exact hcpu

/-- A step is free only if it enters a BRK handler, and then it disables interrupts. -/
theorem step_cost (m : Machine σ) :
    (m.step.1 = 0 ∧ m.cpu.pending = .brk ∧ m.cpu.flags.interrupt = false ∧
        m.step.2.cpu.flags.interrupt = true) ∨
      (2 ≤ m.step.1 ∧ m.step.1 ≤ 20) := by
  obtain ⟨hflags, hbrk⟩ := poll_brk m
  unfold step next
  dsimp only
  cases hdue : m.poll.cpu.due with
  | none =>
    dsimp only
    have hcost := cost_supported m.poll.fetch.1
    generalize Instruction.decode m.poll.fetch.1 = instruction at hcost ⊢
    split
    · next supported => exact .inr (hcost supported _ _)
    · exact .inr (by simp [perform, unsupportedCycles])
  | some action =>
    dsimp only
    unfold Cpu.due at hdue
    cases hpending : m.poll.cpu.pending with
    | none => simp [hpending] at hdue
    | reset | nmi =>
      rw [hpending] at hdue
      cases hdue
      exact .inr (by simp [perform, interruptCycles])
    | irq =>
      rw [hpending] at hdue
      dsimp only at hdue
      split at hdue
      · cases hdue
      · cases hdue
        exact .inr (by simp [perform, interruptCycles])
    | brk =>
      rw [hpending] at hdue
      dsimp only at hdue
      split at hdue
      · cases hdue
      · next unmasked =>
        cases hdue
        rw [hflags] at unmasked
        exact .inl ⟨rfl, hbrk hpending, by simpa using unmasked, rfl⟩

/-! ## One lap -/

theorem lap_spent_le (m : Machine σ) : m.lap.spent ≤ 20 := by
  show m.step.1 ≤ 20
  rcases step_cost m with h | h <;> omega

/-- A lap in which interrupts are disabled is not free. -/
theorem lap_masked {m : Machine σ} (h : m.cpu.flags.interrupt = true) : m.lap.spent ≠ 0 := by
  show m.step.1 ≠ 0
  rcases step_cost m with ⟨_, _, hmask, _⟩ | hcost
  · rw [h] at hmask
    cases hmask
  · omega

/-- After a free lap interrupts are disabled. -/
theorem lap_free {m : Machine σ} (h : m.lap.spent = 0) :
    m.afterLap.cpu.flags.interrupt = true := by
  rcases step_cost m with ⟨_, _, _, hmask⟩ | hcost
  · exact hmask
  · have hspent : m.step.1 = 0 := h
    omega

/-- The count that a lap leaves. -/
theorem cycles_afterLap (m : Machine σ) :
    m.afterLap.cpu.cycles = m.lap.count + m.lap.cycles := by
  show m.step.2.cpu.cycles + m.step.1 + (Bus.takeStall m.step.2.bus).1 =
    m.step.2.cpu.cycles + (m.step.1 + (Bus.takeStall m.step.2.bus).1)
  exact Nat.add_assoc _ _ _

theorem reset_clock (m : Machine σ) (kind : ResetKind) :
    (m.reset kind).cpu.cycles = 0 ∧ (m.reset kind).cpu.pending = .none := ⟨rfl, rfl⟩

/-- A reset that waits is serviced in the next step, and the count starts over. -/
theorem step_reset {m : Machine σ} (h : m.cpu.pending = .reset) :
    m.step.2.cpu.cycles = 0 ∧ m.step.2.cpu.pending = .none := by
  have hpoll : m.poll.cpu.pending = .reset := by
    unfold poll
    dsimp only
    cases (Bus.takeNmi m.bus).1 <;> cases Bus.irq (Bus.takeNmi m.bus).2 <;>
      simp [Cpu.request, h, Interrupt.priority]
  have hnext : m.next = (.reset, m.poll) := by
    unfold next Cpu.due
    simp only [hpoll]
  unfold step
  rw [hnext]
  exact reset_clock m.poll .soft

/-- The count that a step leaves is never more than the one it found. -/
theorem lap_count_le (m : Machine σ) : m.lap.count ≤ m.cpu.cycles := by
  show m.step.2.cpu.cycles ≤ m.cpu.cycles
  by_cases h : m.cpu.pending = .reset
  · rw [(step_reset h).1]
    exact Nat.zero_le _
  · exact Nat.le_of_eq (work_step m h).cycles_eq

theorem lap_count_eq {m : Machine σ} (h : m.cpu.pending ≠ .reset) :
    m.lap.count = m.cpu.cycles := (work_step m h).cycles_eq

theorem noReset_afterLap (m : Machine σ) : m.afterLap.cpu.pending ≠ .reset := by
  show m.step.2.cpu.pending ≠ .reset
  by_cases h : m.cpu.pending = .reset
  · rw [(step_reset h).2]
    decide
  · exact (work_step m h).noReset h

/-! ## The loop ends -/

/-- More laps than are left of the scanline: one for each cycle, and one more if the next step
    may be free. After a reset the count starts over. -/
def lapsLeft (m : Machine σ) : Nat :=
  if lineCycles ≤ m.cpu.cycles then 0
  else if m.cpu.pending = .reset then lineSteps
  else lineCycles - m.cpu.cycles +
    if m.cpu.pending = .brk ∧ m.cpu.flags.interrupt = false then 1 else 0

omit [Bus σ] in
theorem lapsLeft_le (m : Machine σ) : m.lapsLeft ≤ lineSteps := by
  unfold lapsLeft lineSteps lineCycles
  split_ifs <;> omega

/-- Every lap brings the scanline closer to its end. -/
theorem lapsLeft_lt {m : Machine σ} (h : m.cpu.cycles < lineCycles) :
    m.afterLap.lapsLeft < m.lapsLeft := by
  have hcount := cycles_afterLap m
  have hspent : m.lap.cycles = m.step.1 + m.lap.stall := rfl
  have hlater := noReset_afterLap m
  have hcost := step_cost m
  have hmask : m.afterLap.cpu.flags = m.step.2.cpu.flags := rfl
  unfold lapsLeft
  rw [if_neg (Nat.not_le.mpr h), if_neg hlater]
  by_cases hreset : m.cpu.pending = .reset
  · rw [if_pos hreset]
    have hpending : m.cpu.pending ≠ .brk := by
      rw [hreset]
      decide
    have hcosts : 2 ≤ m.step.1 := by
      rcases hcost with ⟨_, hbrk, _⟩ | hcost
      · exact absurd hbrk hpending
      · exact hcost.1
    unfold lineSteps lineCycles
    split_ifs <;> omega
  · rw [if_neg hreset]
    have hsame := lap_count_eq hreset
    unfold lineCycles at h ⊢
    rcases hcost with ⟨_, hbrk, hoff, hon⟩ | hcost
    · rw [hmask, hon, if_pos (show _ ∧ _ from ⟨hbrk, hoff⟩)]
      simp only [Bool.true_eq_false, and_false, if_false]
      split_ifs <;> omega
    · split_ifs <;> omega

/-- The loop of a scanline ends. -/
theorem exists_laps (m : Machine σ) :
    ∃ laps last, m.Laps laps last ∧ laps.length ≤ m.lapsLeft := by
  induction hleft : m.lapsLeft using Nat.strongRecOn generalizing m with
  | ind left ih =>
    subst hleft
    by_cases h : m.cpu.cycles < lineCycles
    · have hless := lapsLeft_lt h
      obtain ⟨laps, last, hlaps, hlength⟩ := ih _ hless m.afterLap rfl
      refine ⟨m.lap :: laps, last, .lap h hlaps, ?_⟩
      rw [List.length_cons]
      omega
    · exact ⟨[], m, .full (Nat.le_of_not_lt h), Nat.zero_le _⟩

namespace Laps

variable {m last : Machine σ} {laps : List Lap}

/-- There is one way through the loop only. -/
theorem unique (h : m.Laps laps last) {laps' : List Lap} {last' : Machine σ}
    (h' : m.Laps laps' last') : laps' = laps ∧ last' = last := by
  induction h generalizing laps' last' with
  | full hfull =>
    cases h' with
    | full => exact ⟨rfl, rfl⟩
    | lap hearly => omega
  | lap hearly _ ih =>
    cases h' with
    | full hfull => omega
    | lap _ rest =>
      obtain ⟨rfl, rfl⟩ := ih rest
      exact ⟨rfl, rfl⟩

/-- Fuel for all the laps is enough. -/
theorem spend_eq (h : m.Laps laps last) {fuel : Nat} (hfuel : laps.length ≤ fuel) :
    m.spend fuel = last := by
  induction h generalizing fuel with
  | full hfull =>
    cases fuel with
    | zero => rfl
    | succ fuel =>
      unfold spend
      rw [if_neg (Nat.not_lt.mpr hfull)]
  | lap hearly _ ih =>
    rw [List.length_cons] at hfuel
    obtain ⟨fuel, rfl⟩ := Nat.exists_eq_add_of_le' (Nat.le_of_add_left_le hfuel)
    unfold spend
    rw [if_pos hearly]
    exact ih (by omega)

theorem length_le (h : m.Laps laps last) : laps.length ≤ lineSteps := by
  obtain ⟨laps', last', hlaps, hlength⟩ := exists_laps m
  obtain ⟨rfl, rfl⟩ := hlaps.unique h
  exact Nat.le_trans hlength (lapsLeft_le m)

/-- The cycles of the line are used up. -/
theorem lineCycles_le (h : m.Laps laps last) : lineCycles ≤ last.cpu.cycles := by
  induction h with
  | full hfull => exact hfull
  | lap _ _ ih => exact ih

/-! ## What the laps take -/

theorem spent_le (h : m.Laps laps last) : ∀ lap ∈ laps, lap.spent ≤ 20 := by
  induction h with
  | full => simp
  | lap _ _ ih => exact List.forall_mem_cons.mpr ⟨lap_spent_le _, ih⟩

/-- The first lap is not free if interrupts are disabled. -/
theorem head_masked (h : m.Laps laps last) (masked : m.cpu.flags.interrupt = true) :
    ∀ lap ∈ laps.head?, lap.spent ≠ 0 := by
  cases h with
  | full => simp
  | lap =>
    intro lap hlap
    cases hlap
    exact lap_masked masked

/-- If the last lap was free, or there was none, interrupts are disabled as they were. -/
theorem last_masked (h : m.Laps laps last)
    (free : ∀ lap ∈ laps.getLast?, lap.spent = 0)
    (masked : laps = [] → m.cpu.flags.interrupt = true) :
    last.cpu.flags.interrupt = true := by
  induction h with
  | full => exact masked rfl
  | @lap m _ laps _ _ ih =>
    cases laps with
    | nil => exact ih (by simp) fun _ => lap_free (free m.lap (by simp))
    | cons first laps => exact ih (fun lap hlap => free lap (by simpa using hlap)) (by simp)

/-- Of two laps in a row one is not free. -/
theorem isChain (h : m.Laps laps last) :
    laps.IsChain fun lap next => lap.spent ≠ 0 ∨ next.spent ≠ 0 := by
  induction h with
  | full => exact .nil
  | @lap m _ laps _ rest ih =>
    cases laps with
    | nil => exact .singleton _
    | cons next laps =>
      refine .cons_cons ?_ ih
      by_cases hfree : m.lap.spent = 0
      · exact .inr (rest.head_masked (lap_free hfree) next rfl)
      · exact .inl hfree

/-- If no lap has to wait longer than `waitLimit`, no sum of the loop grows past what the longest
    step and the longest wait add to a line that was not full. -/
theorem counts_lt (h : m.Laps laps last) :
    ∀ lap ∈ laps, lap.stall ≤ waitLimit →
      lap.count + lap.cycles < lineCycles + 20 + waitLimit := by
  induction h with
  | full => simp
  | @lap m _ _ hearly _ ih =>
    refine List.forall_mem_cons.mpr ⟨fun hstall => ?_, ih⟩
    have hcount := lap_count_le m
    have hspent := lap_spent_le m
    unfold Lap.cycles
    omega

/-- The count when the line is full is the one that the last lap left. -/
theorem cycles_last (h : m.Laps laps last) :
    last.cpu.cycles = (laps.getLast?.map fun lap => lap.count + lap.cycles).getD m.cpu.cycles := by
  induction h with
  | full => rfl
  | @lap m _ laps _ rest ih =>
    cases laps with
    | nil =>
      rw [ih]
      exact cycles_afterLap m
    | cons next laps =>
      rw [ih, List.getLast?_cons_cons, List.getLast?_cons]
      rfl

/-- The surplus stays within its limit. -/
theorem surplus_le (h : m.Laps laps last) (surplus : m.cpu.cycles ≤ surplusLimit)
    (prompt : ∀ lap ∈ laps, lap.stall ≤ waitLimit) : last.endLine.cpu.cycles ≤ surplusLimit := by
  show last.cpu.cycles - lineCycles ≤ surplusLimit
  rw [h.cycles_last]
  cases hlast : laps.getLast? with
  | none => exact Nat.le_trans (Nat.sub_le _ _) surplus
  | some lap =>
    have hmem := List.mem_of_getLast? hlast
    have hcount := h.counts_lt lap hmem (prompt lap hmem)
    unfold lineCycles waitLimit at hcount
    unfold surplusLimit lineCycles
    simp only [Option.map_some, Option.getD_some]
    omega

/-- Unless a reset waits, the laps add what they took. -/
theorem total (h : m.Laps laps last) (noReset : m.cpu.pending ≠ .reset) :
    m.cpu.cycles + (laps.map Lap.cycles).sum = last.cpu.cycles ∧
      last.cpu.pending ≠ .reset := by
  induction h with
  | full => exact ⟨rfl, noReset⟩
  | @lap m _ _ _ _ ih =>
    obtain ⟨hsum, hlast⟩ := ih (noReset_afterLap m)
    have hcount := cycles_afterLap m
    have hsame := lap_count_eq noReset
    refine ⟨?_, hlast⟩
    rw [List.map_cons, List.sum_cons]
    omega

end Laps

/-! ## Scanlines -/

/-- Running a scanline gives the result of its loop. -/
theorem Laps.runLine_eq {m last : Machine σ} {line : UInt16} {laps : List Lap}
    (h : (m.beginLine line).Laps laps last) : m.runLine line = last.endLine := by
  unfold runLine
  rw [h.spend_eq h.length_le]

omit [Bus σ] in
theorem turnOver_clock (m : Machine σ) (turnover : Turnover σ) :
    (m.turnOver turnover).cpu.cycles = m.cpu.cycles ∧
      (m.turnOver turnover).cpu.flags = m.cpu.flags := by
  show (turnover.requests.foldl Cpu.request m.cpu).cycles = _ ∧
    (turnover.requests.foldl Cpu.request m.cpu).flags = _
  generalize m.cpu = cpu
  induction turnover.requests generalizing cpu with
  | nil => exact ⟨rfl, rfl⟩
  | cons kind kinds ih =>
    obtain ⟨hcycles, hflags⟩ := ih (cpu.request kind)
    exact ⟨hcycles.trans (request_cycles cpu kind), hflags.trans (request_flags cpu kind)⟩

omit [Bus σ] in
theorem turnOver_noReset {m : Machine σ} {turnover : Turnover σ}
    (h : m.cpu.pending ≠ .reset) (noReset : .reset ∉ turnover.requests) :
    (m.turnOver turnover).cpu.pending ≠ .reset := by
  show (turnover.requests.foldl Cpu.request m.cpu).pending ≠ .reset
  generalize m.cpu = cpu at h
  generalize turnover.requests = requests at noReset
  induction requests generalizing cpu with
  | nil => exact h
  | cons kind kinds ih =>
    rw [List.mem_cons, not_or] at noReset
    exact ih _ (request_ne_reset h (Ne.symm noReset.1)) noReset.2

theorem exists_scanlines (m : Machine σ) (turnovers : List (Turnover σ)) :
    ∃ laps last, m.Scanlines turnovers laps last := by
  induction turnovers generalizing m with
  | nil => exact ⟨[], m, .nil m⟩
  | cons turnover turnovers ih =>
    obtain ⟨laps, mid, hline, _⟩ := exists_laps (m.turnOver turnover)
    obtain ⟨later, last, hrest⟩ := ih mid.endLine
    exact ⟨laps ++ later, last, .cons hline hrest⟩

namespace Scanlines

variable {m last : Machine σ} {turnovers : List (Turnover σ)} {laps : List Lap}

/-- Scanlines are run one after the other. -/
theorem eq_foldl (h : m.Scanlines turnovers laps last) :
    last = turnovers.foldl (fun m turnover =>
      Machine.runLine ⟨turnover.requests.foldl Cpu.request m.cpu, turnover.bus m.bus⟩
        turnover.line) m := by
  induction h with
  | nil => rfl
  | cons line _ ih =>
    rw [ih, List.foldl_cons, line.runLine_eq]

/-- The first lap of all is not free if interrupts are disabled. -/
theorem head_masked (h : m.Scanlines turnovers laps last)
    (masked : m.cpu.flags.interrupt = true) : ∀ lap ∈ laps.head?, lap.spent ≠ 0 := by
  induction h with
  | nil => simp
  | @cons m mid _ turnover _ laps later line rest ih =>
    have hbegin : (m.turnOver turnover).cpu.flags.interrupt = true := by
      rw [(turnOver_clock m turnover).2]
      exact masked
    cases laps with
    | nil =>
      have hmid : mid.cpu.flags.interrupt = true := line.last_masked (by simp) fun _ => hbegin
      exact ih hmid
    | cons first laps =>
      intro lap hlap
      exact line.head_masked hbegin lap (by simpa using hlap)

/-- Of two laps in a row one is not free, also if a scanline ends between them. -/
theorem isChain (h : m.Scanlines turnovers laps last) :
    laps.IsChain fun lap next => lap.spent ≠ 0 ∨ next.spent ≠ 0 := by
  induction h with
  | nil => exact .nil
  | @cons m mid _ _ _ laps later line rest ih =>
    refine line.isChain.append ih ?_
    intro lap hlap next hnext
    by_cases hfree : lap.spent = 0
    · have hlaps : laps ≠ [] := by
        rintro rfl
        cases hlap
      have hmid : mid.cpu.flags.interrupt = true := by
        refine line.last_masked (fun lap' hlap' => ?_) fun hnil => absurd hnil hlaps
        cases hlap.symm.trans hlap'
        exact hfree
      exact .inr (rest.head_masked hmid next hnext)
    · exact .inl hfree

/-- What the laps took and the cycles of the scanlines differ by the surplus alone. -/
theorem total (h : m.Scanlines turnovers laps last) (noReset : m.cpu.pending ≠ .reset)
    (requests : ∀ turnover ∈ turnovers, .reset ∉ turnover.requests) :
    m.cpu.cycles + (laps.map Lap.cycles).sum =
      lineCycles * turnovers.length + last.cpu.cycles := by
  induction h with
  | nil => simp
  | @cons m mid last turnover turnovers laps later line rest ih =>
    obtain ⟨hfirst, hothers⟩ := List.forall_mem_cons.mp requests
    obtain ⟨hsum, hmid⟩ := line.total (turnOver_noReset noReset hfirst)
    have hlater := ih hmid hothers
    have hend : mid.endLine.cpu.cycles = mid.cpu.cycles - lineCycles := rfl
    have hfull := line.lineCycles_le
    rw [(turnOver_clock m turnover).1] at hsum
    rw [List.map_append, List.sum_append, List.length_cons, Nat.mul_succ]
    omega

/-- The surplus stays within its limit, scanline after scanline. -/
theorem surplus_le (h : m.Scanlines turnovers laps last) (surplus : m.cpu.cycles ≤ surplusLimit)
    (prompt : ∀ lap ∈ laps, lap.stall ≤ waitLimit) : last.cpu.cycles ≤ surplusLimit := by
  induction h with
  | nil => exact surplus
  | @cons m mid last turnover turnovers laps later line rest ih =>
    obtain ⟨hfirst, hothers⟩ := List.forall_mem_append.mp prompt
    refine ih (line.surplus_le ?_ hfirst) hothers
    rw [(turnOver_clock m turnover).1]
    exact surplus

end Scanlines
end Machine
end Nes
