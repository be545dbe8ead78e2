/-
  A pulse channel that nothing changes gives a square wave that does not drift.

  Model (read this before the theorems). Time is counted in timer units. `high` tells where a wave
  is high some time after it stood at a step of its duty, and `Pulse.ahead` is the level that the
  channel has some samples from now, by that formula alone. A channel is `Steady` where it can be
  heard, its volume and its length are kept, and its sweep is off; `Pulse.slices` are the levels of
  slices one after another, with any clocks.

  A sample divides the time that has passed by the length of a step. What is left over is kept, so
  the formula seen from the next sample is the formula seen from this one, a sample further on
  (`ahead_advance`). Hence the levels of any number of slices are read off the formula at the first
  (`square_wave`). That the wave repeats after eight steps and not earlier is shown by its rise:
  each duty has only one (`exists_rise`).
-/
import Mathlib.Algebra.Ring.Periodic
import Mathlib.Tactic.Ring
import Nes.Proofs.Apu.Calls

namespace Nes

namespace Pulse

/-! ## The formula -/

/-- The timer units of one step. -/
def stepUnits (period : Nat) : Nat := 2 * (period + 1) * cycleUnit

theorem stepUnits_pos (period : Nat) : 0 < stepUnits period :=
  Nat.mul_pos (by omega) (by decide)

/-- Whether a wave is high some time after it began a step. -/
def high (duty : Fin 4) (period : Nat) (step : Fin 8) (time : Nat) : Bool :=
  (dutyTable.get duty).get (wrap (step + time / stepUnits period))

/-- The level so many samples from now, if nothing changes. -/
def ahead (p : Pulse) (samples : Nat) : Nat :=
  if high p.duty p.period p.step (p.timer.rest + samples * sampleUnits) then p.envelope.param else 0

/-- Steps that have ended may be counted at once or later. -/
theorem high_add_steps (duty : Fin 4) (period : Nat) (step : Fin 8) (steps time : Nat) :
    high duty period (wrap (step + steps)) time =
      high duty period step (steps * stepUnits period + time) := by
  have htime : (steps * stepUnits period + time) / stepUnits period =
      steps + time / stepUnits period := by
    rw [Nat.add_comm, Nat.add_mul_div_right _ _ (stepUnits_pos period), Nat.add_comm]
  have hstep : (wrap ((wrap (step + steps) : Fin 8) + time / stepUnits period) : Fin 8) =
      wrap (step + (steps + time / stepUnits period)) := by
    apply Fin.ext
    simp only [val_wrap]
    omega
  unfold high
  rw [htime, hstep]

/-- The eight values of a duty have one rise. -/
theorem exists_rise : ∀ duty : Fin 4, ∃ rise : Fin 8, ∀ step : Fin 8,
    (dutyTable.get duty).get step = false ∧ (dutyTable.get duty).get (wrap (step + 1)) = true ↔
      step = rise := by
  decide

/-- A wave rises where one step ends and the next begins, and only from one step of its eight. -/
theorem rises_iff {duty : Fin 4} {rise : Fin 8}
    (h : ∀ step : Fin 8, (dutyTable.get duty).get step = false ∧
      (dutyTable.get duty).get (wrap (step + 1)) = true ↔ step = rise)
    (period : Nat) (step : Fin 8) (time : Nat) :
    high duty period step time = false ∧ high duty period step (time + 1) = true ↔
      ∃ steps, time + 1 = (steps + 1) * stepUnits period ∧ (step + steps) % 8 = rise := by
  unfold high
  by_cases hend : stepUnits period ∣ time + 1
  · have hnext := Nat.succ_div_of_dvd hend
    have htime : time + 1 = (time / stepUnits period + 1) * stepUnits period := by
      rw [← hnext, Nat.div_mul_cancel hend]
    have hwrap : (wrap (step + (time / stepUnits period + 1)) : Fin 8) =
        wrap ((wrap (step + time / stepUnits period) : Fin 8) + 1) := by
      apply Fin.ext
      simp only [val_wrap]
      omega
    rw [hnext, hwrap, h, Fin.ext_iff, val_wrap]
    refine ⟨fun hrise => ⟨_, htime, hrise⟩, ?_⟩
    rintro ⟨steps, hsteps, hrise⟩
    have hsame : steps + 1 = time / stepUnits period + 1 :=
      Nat.eq_of_mul_eq_mul_right (stepUnits_pos period) (hsteps.symm.trans htime)
    rwa [Nat.succ.inj hsame] at hrise
  · -- inside a step the wave does not change
    rw [Nat.succ_div_of_not_dvd hend]
    refine ⟨fun ⟨low, risen⟩ => absurd (low.symm.trans risen) (by decide), ?_⟩
    rintro ⟨steps, hsteps, -⟩
    exact absurd (hsteps ▸ Nat.dvd_mul_left _ _) hend

/-- After eight steps the wave repeats. -/
theorem periodic_high (duty : Fin 4) (period : Nat) (step : Fin 8) (rounds : Nat) :
    Function.Periodic (high duty period step) (8 * rounds * stepUnits period) := by
  intro time
  have hwrap : (wrap (step + (time / stepUnits period + 8 * rounds)) : Fin 8) =
      wrap (step + time / stepUnits period) := by
    apply Fin.ext
    simp only [val_wrap]
    omega
  unfold high
  rw [Nat.add_mul_div_right _ _ (stepUnits_pos period), hwrap]

/-- Wherever the wave repeats, eight steps have ended some times: a rise was led to a rise. -/
theorem rounds_of_periodic {duty : Fin 4} {period : Nat} {step : Fin 8} {units : Nat}
    (h : Function.Periodic (high duty period step) units) :
    ∃ rounds, units = 8 * rounds * stepUnits period := by
  obtain ⟨rise, hrise⟩ := exists_rise duty
  have hpos := stepUnits_pos period
  obtain ⟨time, htime⟩ : ∃ time, time + 1 = (rise + 8 - step + 1) * stepUnits period :=
    Nat.exists_add_one_eq.mpr (Nat.mul_pos (Nat.succ_pos _) hpos)
  have hstep : (step + (rise + 8 - step)) % 8 = rise.val := by omega
  have hfirst := (rises_iff hrise period step time).mpr ⟨_, htime, hstep⟩
  rw [← h time, ← h (time + 1), Nat.add_right_comm] at hfirst
  obtain ⟨steps, hsteps, hsame⟩ := (rises_iff hrise period step (time + units)).mp hfirst
  rw [Nat.add_right_comm, htime] at hsteps
  have hle : rise + 8 - step + 1 ≤ steps + 1 :=
    Nat.le_of_mul_le_mul_right (hsteps ▸ Nat.le_add_right _ units) hpos
  obtain ⟨rounds, hrounds⟩ : ∃ rounds, steps = (rise + 8 - step) + 8 * rounds :=
    ⟨(steps - (rise + 8 - step)) / 8, by omega⟩
  refine ⟨rounds, Nat.add_left_cancel (hsteps.trans ?_)⟩
  rw [hrounds, ← Nat.add_mul]
  congr 1
  omega

/-- The period of the wave is 16 times that of the channel and one more, in cycles. -/
theorem periodic_high_iff (duty : Fin 4) (period : Nat) (step : Fin 8) (units : Nat) :
    Function.Periodic (high duty period step) units ↔ 16 * (period + 1) * cycleUnit ∣ units := by
  have height (rounds : Nat) :
      8 * rounds * stepUnits period = 16 * (period + 1) * cycleUnit * rounds := by
    unfold stepUnits
    ring
  constructor
  · intro h
    obtain ⟨rounds, hrounds⟩ := rounds_of_periodic h
    exact ⟨rounds, hrounds.trans (height rounds)⟩
  · rintro ⟨rounds, rfl⟩
    rw [← height]
    exact periodic_high duty period step rounds

/-! ## Samples and clocks -/

/-- Nothing changes the wave: it can be heard, its volume and its length are kept, and the sweep
    does not change its period. -/
structure Steady (p : Pulse) : Prop where
  audible : p.audible = true
  unswept : p.sweep.enabled = false ∨ p.sweep.shift = 0
  halted : p.envelope.looping = true
  constant : p.envelope.constant = true

/-- The channel gave these levels, and they are what lay ahead of it. -/
structure Gives (p : Pulse) (levels : List Nat) (later : Pulse) : Prop where
  levels_eq : levels = (List.range' 1 levels.length).map p.ahead
  ahead_eq : ∀ samples, later.ahead samples = p.ahead (levels.length + samples)
  period_eq : later.period = p.period
  steady : later.Steady

variable {p q r : Pulse}

theorem Steady.gives_nil (h : q.Steady) (duty : q.duty = p.duty) (period : q.period = p.period)
    (step : q.step = p.step) (timer : q.timer = p.timer)
    (param : q.envelope.param = p.envelope.param) : p.Gives [] q := by
  refine ⟨rfl, fun samples => ?_, period, h⟩
  unfold ahead
  rw [duty, period, step, timer, param, List.length_nil, Nat.zero_add]

theorem Steady.gives_nothing (h : p.Steady) : p.Gives [] p := h.gives_nil rfl rfl rfl rfl rfl

theorem Gives.append {levels more : List Nat} (h : p.Gives levels q) (h' : q.Gives more r) :
    p.Gives (levels ++ more) r := by
  refine ⟨?_, fun samples => ?_, h'.period_eq.trans h.period_eq, h'.steady⟩
  · have hmore : more = (List.range' (1 + levels.length) more.length).map p.ahead := by
      conv => lhs; rw [h'.levels_eq]
      rw [Nat.add_comm, ← List.map_add_range', List.map_map]
      exact List.map_congr_left fun samples _ => h.ahead_eq samples
    rw [List.length_append, ← List.range'_append_1, List.map_append, ← h.levels_eq, ← hmore]
  · rw [h'.ahead_eq, h.ahead_eq, List.length_append, Nat.add_assoc]

/-- The channel after the steps that ended in a sample. -/
def advance (p : Pulse) (ticked : Nat × SampleTimer) : Pulse :=
  { p with timer := ticked.2, step := wrap (p.step + ticked.1) }

section Advance

variable (p) (ticked : Nat × SampleTimer)

@[simp] theorem period_advance : (p.advance ticked).period = p.period := rfl

@[simp] theorem audible_advance : (p.advance ticked).audible = p.audible := by
  unfold audible advance
  rfl

end Advance

theorem sample_eq (p : Pulse) :
    p.sample = ((p.advance (p.timer.tick (2 * (p.period + 1)))).level,
      p.advance (p.timer.tick (2 * (p.period + 1)))) := rfl

/-- The formula after a sample is the formula before it, a sample further on. -/
theorem ahead_advance {ticked : Nat × SampleTimer}
    (h : ticked.1 * stepUnits p.period + ticked.2.rest = p.timer.rest + sampleUnits)
    (samples : Nat) : (p.advance ticked).ahead samples = p.ahead (samples + 1) := by
  have htime : ticked.1 * stepUnits p.period + (ticked.2.rest + samples * sampleUnits) =
      p.timer.rest + (samples + 1) * sampleUnits := by
    rw [← Nat.add_assoc, h, Nat.succ_mul]
    omega
  unfold ahead advance
  rw [high_add_steps, htime]

/-- The level now. -/
theorem Steady.level_eq (h : p.Steady) (hrest : p.timer.rest < stepUnits p.period) :
    p.level = p.ahead 0 := by
  have hstep : (wrap (p.step + p.timer.rest / stepUnits p.period) : Fin 8) = p.step := by
    rw [Nat.div_eq_of_lt hrest]
    exact Fin.ext (Nat.mod_eq_of_lt p.step.isLt)
  unfold level ahead high Envelope.volume
  rw [h.audible, h.constant, Nat.zero_mul, Nat.add_zero, hstep, Bool.true_and, if_pos rfl]

theorem Steady.advance (h : p.Steady) {ticked : Nat × SampleTimer}
    (hunits : ticked.1 * stepUnits p.period + ticked.2.rest = p.timer.rest + sampleUnits)
    (hrest : ticked.2.rest < stepUnits p.period) :
    p.Gives [(p.advance ticked).level] (p.advance ticked) := by
  have hahead := ahead_advance hunits
  have hsteady : (p.advance ticked).Steady :=
    ⟨by simpa using h.audible, h.unswept, h.halted, h.constant⟩
  have hinside : (p.advance ticked).timer.rest < stepUnits (p.advance ticked).period := hrest
  have hlevel : (p.advance ticked).level = p.ahead 1 := by
    rw [hsteady.level_eq hinside, hahead]
  refine ⟨?_, fun samples => ?_, p.period_advance ticked, hsteady⟩
  · rw [hlevel]
    rfl
  · rw [hahead, Nat.add_comm, List.length_singleton]

theorem Steady.sample (h : p.Steady) : p.Gives [p.sample.1] p.sample.2 := by
  have hpos : 0 < 2 * (p.period + 1) := by omega
  obtain ⟨hunits, hrest⟩ := p.timer.cuts_tick hpos
  rw [sample_eq]
  exact h.advance hunits hrest

/-- A sweep that is off stays off, and mutes the same periods. -/
theorem sweep_clock_off {s : Sweep} (h : s.enabled = false ∨ s.shift = 0) (period : Nat) :
    (s.clock period).1 = period ∧
      ((s.clock period).2.enabled = false ∨ (s.clock period).2.shift = 0) ∧
      (s.clock period).2.mutes period = s.mutes period := by
  have hidle :
      (s.divider == 0 && s.enabled && decide (0 < s.shift) && !s.mutes period) = false := by
    rcases h with off | unshifted
    · simp [off]
    · simp [unshifted]
  unfold Sweep.clock
  rw [hidle]
  dsimp only
  split <;> exact ⟨rfl, h, rfl⟩

theorem Steady.clockEnvelope (h : p.Steady) :
    p.Gives [] { p with envelope := p.envelope.clock } := by
  obtain ⟨hlooping, hconstant, hparam⟩ := p.envelope.settings_clock
  have hsteady : Steady { p with envelope := p.envelope.clock } :=
    ⟨h.audible, h.unswept, hlooping.trans h.halted, hconstant.trans h.constant⟩
  exact hsteady.gives_nil rfl rfl rfl rfl hparam

theorem Steady.clockHalf (h : p.Steady) :
    p.Gives [] { p with
      length := p.length.clock p.envelope.looping
      period := (p.sweep.clock p.period).1
      sweep := (p.sweep.clock p.period).2 } := by
  obtain ⟨hperiod, hunswept, hmutes⟩ := sweep_clock_off h.unswept p.period
  have hlength : p.length.clock p.envelope.looping = p.length := by
    rw [h.halted]
    rfl
  rw [hlength, hperiod]
  have haudible : Pulse.audible { p with sweep := (p.sweep.clock p.period).2 } = true := by
    unfold Pulse.audible
    dsimp only
    rw [hmutes]
    exact h.audible
  have hsteady : Steady { p with sweep := (p.sweep.clock p.period).2 } :=
    ⟨haudible, hunswept, h.halted, h.constant⟩
  exact hsteady.gives_nil rfl rfl rfl rfl rfl

theorem Steady.clock (h : p.Steady) (c : FrameClock) : p.Gives [] (p.clock c) := by
  have hquarter :
      p.Gives [] (if c.quarter then { p with envelope := p.envelope.clock } else p) := by
    split
    · exact h.clockEnvelope
    · exact h.gives_nothing
  unfold Pulse.clock
  generalize (if c.quarter then { p with envelope := p.envelope.clock } else p) = q at hquarter ⊢
  dsimp only
  split
  · exact hquarter.append hquarter.steady.clockHalf
  · exact hquarter

/-! ## Any number of slices -/

/-- The levels of slices that are taken one after another. -/
def slices (p : Pulse) : (clocks : List FrameClock) → List Nat × Pulse
  | [] => ([], p)
  | c :: clocks =>
    let first := p.slice c
    let later := first.2.slices clocks
    (first.1.toList ++ later.1, later.2)

theorem slices_cons (p : Pulse) (c : FrameClock) (clocks : List FrameClock) :
    p.slices (c :: clocks) =
      ((p.slice c).1.toList ++ ((p.slice c).2.slices clocks).1,
        ((p.slice c).2.slices clocks).2) := rfl

theorem Steady.takeSamples (h : p.Steady) (out : Array Nat) (count : Nat) :
    ∃ levels, (takeSamples Pulse.sample p out count).1.toList = out.toList ++ levels ∧
      levels.length = count ∧ p.Gives levels (takeSamples Pulse.sample p out count).2 := by
  induction count generalizing p out with
  | zero =>
    exact ⟨[], (List.append_nil _).symm, rfl, h.gives_nothing⟩
  | succ count ih =>
    have hfirst := h.sample
    obtain ⟨levels, hlevels, hlength, hgives⟩ := ih hfirst.steady (out.push p.sample.1)
    refine ⟨p.sample.1 :: levels, ?_, ?_, hfirst.append hgives⟩
    · refine hlevels.trans ?_
      rw [Array.toList_push, List.append_assoc]
      rfl
    · rw [List.length_cons, hlength]

theorem Steady.slices (h : p.Steady) (clocks : List FrameClock) :
    (p.slices clocks).1.length = sliceSamples * clocks.length ∧
      p.Gives (p.slices clocks).1 (p.slices clocks).2 := by
  induction clocks generalizing p with
  | nil => exact ⟨rfl, h.gives_nothing⟩
  | cons c clocks ih =>
    have hclock := h.clock c
    obtain ⟨levels, hlevels, hlength, hgives⟩ := hclock.steady.takeSamples #[] sliceSamples
    rw [← slice_eq, List.nil_append] at hlevels
    rw [← slice_eq] at hgives
    have hfirst : p.Gives (p.slice c).1.toList (p.slice c).2 := by
      rw [hlevels]
      exact hclock.append hgives
    obtain ⟨hlater, hrest⟩ := ih hgives.steady
    rw [slices_cons]
    refine ⟨?_, hfirst.append hrest⟩
    rw [List.length_append, hlevels, hlength, hlater, List.length_cons, Nat.mul_succ, Nat.add_comm]

/-- A steady channel plays any number of slices, with any clocks. The samples are those of the
    formula, counted from the first through all slices: high or low by the step that the time passed
    leads to. The wave repeats after 16 times the period and one more cycles, and
    after no time that is not a multiple of that. A write of the low byte of the period between
    two slices keeps the step and what is left over of it, and where the channel can still be heard
    the samples go on from there with the new period. -/
theorem square_wave (h : p.Steady) (clocks : List FrameClock) :
    let last := (p.slices clocks).2
    (p.slices clocks).1 = (List.range' 1 (sliceSamples * clocks.length)).map p.ahead ∧
      (∀ units, Function.Periodic (high p.duty p.period p.step) units ↔
        16 * (p.period + 1) * cycleUnit ∣ units) ∧
      ∀ value : UInt8,
        let rewritten := last.writeTimerLow value
        rewritten.step = last.step ∧ rewritten.timer = last.timer ∧
          rewritten.period = p.period / 256 * 256 + value.toNat ∧
          (rewritten.audible = true → ∀ later : List FrameClock,
            (rewritten.slices later).1 =
              (List.range' 1 (sliceSamples * later.length)).map rewritten.ahead) := by
  intro last
  have hgiven {first : Pulse} (hfirst : first.Steady) (more : List FrameClock) :
      (first.slices more).1 = (List.range' 1 (sliceSamples * more.length)).map first.ahead := by
    obtain ⟨hlength, hgives⟩ := hfirst.slices more
    rw [← hlength]
    exact hgives.levels_eq
  have hlast := (h.slices clocks).2
  refine ⟨hgiven h clocks, periodic_high_iff p.duty p.period p.step, fun value => ?_⟩
  intro rewritten
  refine ⟨rfl, rfl, ?_, fun haudible => hgiven ?_⟩
  · show last.period / 256 * 256 + value.toNat = _
    rw [hlast.period_eq]
  · exact ⟨haudible, hlast.steady.unswept, hlast.steady.halted, hlast.steady.constant⟩

/-- A wave of 508 cycles a step and duty a half rises at the 26th sample. -/
theorem square_wave_in_two_slices :
    let p := (Apu.after [.write 0x4015 0x01, .write 0x4000 0xBF, .write 0x4002 0xFD,
      .write 0x4003 0x08] {}).pulse1
    p.Steady ∧ p.ahead 25 = 0 ∧ p.ahead 26 = 15 ∧
      (p.slices [⟨true, false⟩, ⟨true, true⟩]).1 = (List.range' 1 184).map p.ahead := by
  intro p
  have hsteady : p.Steady := ⟨rfl, .inl rfl, rfl, rfl⟩
  exact ⟨hsteady, by decide, by decide, (square_wave hsteady [⟨true, false⟩, ⟨true, true⟩]).1⟩

end Pulse
end Nes
