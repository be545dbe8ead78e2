/-
  The ranges of everything that the sound chip counts.

  Each channel has an invariant, `Bounded`, with a field for each of its registers and counters:
  periods have eleven bits, volumes four, the delta level seven, the noise register is a number of
  fifteen bits that is not zero, and what a timer keeps is less than the longest step. A channel
  that is switched off has no length left. Every write, every clock and every sample keeps it.
  What a sample can be is read off the invariant: 15 at most, and 127 for the DMC.

  A sweep changes a period only to one that is not muted, so it stays within eleven bits. The timers
  keep their rest when a period changes; a rest is smaller than the longest step whatever the
  period is by then.
-/
import Nes.Apu.Basic

namespace Nes

/-! ## Timers and samples -/

/-- Cycles of the longest step: that of a pulse channel with the largest period. -/
def longestStep : Nat := 2 * (maxPeriod + 1)

/-- What is left over is less than the longest step. -/
def SampleTimer.Bounded (timer : SampleTimer) : Prop := timer.rest < longestStep * cycleUnit

theorem SampleTimer.bounded_new : ({} : SampleTimer).Bounded :=
  Nat.mul_pos (by decide) (by decide)

theorem SampleTimer.bounded_tick (timer : SampleTimer) {period : Nat} (h : period ≤ longestStep) :
    (timer.tick period).2.Bounded := by
  have hmax : max period 1 ≤ longestStep := by
    unfold longestStep maxPeriod at *
    omega
  have hrest : (timer.rest + sampleUnits) % (max period 1 * cycleUnit) <
      max period 1 * cycleUnit := by
    refine Nat.mod_lt _ (Nat.mul_pos ?_ (by decide))
    omega
  exact Nat.lt_of_lt_of_le hrest (Nat.mul_le_mul_right cycleUnit hmax)

/-- A tick cuts the time that has passed into whole steps; less than one step is left over. -/
def SampleTimer.Cuts (timer : SampleTimer) (period : Nat) (ticked : Nat × SampleTimer) : Prop :=
  ticked.1 * (period * cycleUnit) + ticked.2.rest = timer.rest + sampleUnits ∧
    ticked.2.rest < period * cycleUnit

theorem SampleTimer.cuts_tick (timer : SampleTimer) {period : Nat} (h : 0 < period) :
    timer.Cuts period (timer.tick period) := by
  have hperiod : max period 1 = period := by omega
  unfold Cuts tick
  dsimp only
  rw [hperiod]
  exact ⟨Nat.div_add_mod' _ _, Nat.mod_lt _ (Nat.mul_pos h (by decide))⟩

/-- What every sample keeps, and how large it can be, holds of a whole row of samples. -/
theorem takeSamples_bounded {S : Type} {sample : S → Nat × S} {P : S → Prop} {top : Nat}
    (step : ∀ channel, P channel → (sample channel).1 ≤ top ∧ P (sample channel).2)
    {channel : S} (h : P channel) {out : Array Nat} (hout : ∀ level ∈ out, level ≤ top)
    (count : Nat) :
    (∀ level ∈ (takeSamples sample channel out count).1, level ≤ top) ∧
      P (takeSamples sample channel out count).2 := by
  induction count generalizing channel out with
  | zero => exact ⟨hout, h⟩
  | succ count ih =>
    obtain ⟨hlevel, hnext⟩ := step channel h
    refine ih hnext fun level hmem => ?_
    rcases Array.mem_push.mp hmem with hmem | rfl
    · exact hout level hmem
    · exact hlevel

theorem size_takeSamples {S : Type} (sample : S → Nat × S) (channel : S) (out : Array Nat)
    (count : Nat) : (takeSamples sample channel out count).1.size = out.size + count := by
  induction count generalizing channel out with
  | zero => rfl
  | succ count ih =>
    refine (ih (sample channel).2 (out.push (sample channel).1)).trans ?_
    rw [Array.size_push]
    omega

/-! ## Envelopes and length counters -/

structure Envelope.Bounded (e : Envelope) : Prop where
  param : e.param ≤ 15
  divider : e.divider ≤ 15
  decay : e.decay ≤ 15

namespace Envelope

variable {e : Envelope}

theorem bounded_new : ({} : Envelope).Bounded := ⟨by decide, by decide, by decide⟩

theorem Bounded.write (h : e.Bounded) (value : UInt8) : (e.write value).Bounded := by
  have hparam : value.toNat % 16 ≤ 15 := by omega
  exact ⟨hparam, h.divider, h.decay⟩

theorem Bounded.restart (h : e.Bounded) : e.restart.Bounded := ⟨h.param, h.divider, h.decay⟩

theorem fall_le {level : Nat} (h : level ≤ 15) : e.fall level ≤ 15 := by
  unfold fall
  split
  · split <;> omega
  · omega

/-- A clock leaves the settings alone. -/
theorem settings_clock (e : Envelope) :
    e.clock.looping = e.looping ∧ e.clock.constant = e.constant ∧ e.clock.param = e.param := by
  unfold Envelope.clock
  split
  · exact ⟨rfl, rfl, rfl⟩
  · split <;> exact ⟨rfl, rfl, rfl⟩

theorem Bounded.clock (h : e.Bounded) : e.clock.Bounded := by
  unfold Envelope.clock
  split
  · exact ⟨h.param, h.param, Nat.le_refl 15⟩
  · split
    · have hdivider : e.divider - 1 ≤ 15 := Nat.le_trans (Nat.sub_le _ _) h.divider
      exact ⟨h.param, hdivider, h.decay⟩
    · exact ⟨h.param, h.param, fall_le h.decay⟩

theorem Bounded.volume_le (h : e.Bounded) : e.volume ≤ 15 := by
  unfold volume
  split
  · exact h.param
  · exact h.decay

end Envelope

/-- The longest length is 254. -/
def LengthCounter.Bounded (counter : LengthCounter) : Prop := counter.value ≤ 254

namespace LengthCounter

variable {counter : LengthCounter}

theorem table_le (index : Fin 32) : table.get index ≤ 254 := by
  revert index
  decide

theorem Bounded.load (h : counter.Bounded) (value : UInt8) (enabled : Bool) :
    (counter.load value enabled).Bounded := by
  unfold LengthCounter.load
  split
  · exact table_le _
  · exact h

theorem Bounded.gate (h : counter.Bounded) (enabled : Bool) : (counter.gate enabled).Bounded := by
  unfold LengthCounter.gate
  split
  · exact h
  · exact Nat.zero_le _

theorem Bounded.clock (h : counter.Bounded) (halt : Bool) : (counter.clock halt).Bounded := by
  unfold LengthCounter.clock
  split
  · exact h
  · exact Nat.le_trans (Nat.sub_le _ _) h

/-- Without a length a clock leaves none. -/
theorem clock_zero (h : counter.value = 0) (halt : Bool) : (counter.clock halt).value = 0 := by
  unfold LengthCounter.clock
  split
  · exact h
  · show counter.value - 1 = 0
    omega

end LengthCounter

/-- A channel that is switched off has no length left. -/
def Idle (enabled : Bool) (length : LengthCounter) : Prop := enabled = false → length.value = 0

theorem Idle.load {enabled : Bool} {length : LengthCounter} (h : Idle enabled length)
    (value : UInt8) : Idle enabled (length.load value enabled) := by
  intro off
  unfold LengthCounter.load
  rw [if_neg (by simp [off])]
  exact h off

theorem idle_gate (enabled : Bool) (length : LengthCounter) :
    Idle enabled (length.gate enabled) := by
  intro off
  unfold LengthCounter.gate
  rw [if_neg (by simp [off])]

theorem Idle.clock {enabled : Bool} {length : LengthCounter} (h : Idle enabled length)
    (halt : Bool) : Idle enabled (length.clock halt) :=
  fun off => LengthCounter.clock_zero (h off) halt

/-! ## Pulse channels -/

structure Sweep.Bounded (s : Sweep) : Prop where
  shift : s.shift ≤ 7
  period : s.period ≤ 7
  divider : s.divider ≤ 7

namespace Sweep

variable {s : Sweep}

theorem Bounded.write (h : s.Bounded) (value : UInt8) : (s.write value).Bounded := by
  have hshift : value.toNat % 8 ≤ 7 := by omega
  have hperiod : value.toNat / 16 % 8 ≤ 7 := by omega
  exact ⟨hshift, hperiod, h.divider⟩

theorem Bounded.clock (h : s.Bounded) (period : Nat) : (s.clock period).2.Bounded := by
  unfold Sweep.clock
  dsimp only
  split
  · exact ⟨h.shift, h.period, h.period⟩
  · have hdivider : s.divider - 1 ≤ 7 := Nat.le_trans (Nat.sub_le _ _) h.divider
    exact ⟨h.shift, h.period, hdivider⟩

/-- A period that is not muted does not become too long. -/
theorem target_le {period : Nat} (h : s.mutes period = false) : s.target period ≤ maxPeriod := by
  unfold mutes at h
  simp only [Bool.or_eq_false_iff, decide_eq_false_iff_not] at h
  omega

theorem period_clock_le {period : Nat} (h : period ≤ maxPeriod) :
    (s.clock period).1 ≤ maxPeriod := by
  have hnext : (if (s.divider == 0 && s.enabled && decide (0 < s.shift) && !s.mutes period) = true
      then s.target period else period) ≤ maxPeriod := by
    split
    · next changes =>
      simp only [Bool.and_eq_true, Bool.not_eq_true'] at changes
      exact target_le changes.2
    · exact h
  unfold Sweep.clock
  dsimp only
  split <;> exact hnext

end Sweep

structure Pulse.Bounded (p : Pulse) : Prop where
  period : p.period ≤ maxPeriod
  timer : p.timer.Bounded
  envelope : p.envelope.Bounded
  length : p.length.Bounded
  sweep : p.sweep.Bounded
  idle : Idle p.enabled p.length

/-- The period after a write of its low byte. -/
theorem low_period_le {period : Nat} (h : period ≤ maxPeriod) (value : UInt8) :
    period / 256 * 256 + value.toNat ≤ maxPeriod := by
  have hvalue := value.toNat_lt
  unfold maxPeriod at *
  omega

/-- The period after a write of its high bits. -/
theorem high_period_le (period : Nat) (value : UInt8) :
    value.toNat % 8 * 256 + period % 256 ≤ maxPeriod := by
  unfold maxPeriod
  omega

namespace Pulse

variable {p : Pulse}

theorem bounded_silent (negation : Negation) : (silent negation).Bounded :=
  ⟨Nat.zero_le _, SampleTimer.bounded_new, Envelope.bounded_new, Nat.zero_le _,
    ⟨Nat.zero_le _, Nat.zero_le _, Nat.zero_le _⟩, fun _ => rfl⟩

theorem Bounded.writeControl (h : p.Bounded) (value : UInt8) : (p.writeControl value).Bounded :=
  ⟨h.period, h.timer, h.envelope.write value, h.length, h.sweep, h.idle⟩

theorem Bounded.writeSweep (h : p.Bounded) (value : UInt8) : (p.writeSweep value).Bounded :=
  ⟨h.period, h.timer, h.envelope, h.length, h.sweep.write value, h.idle⟩

theorem Bounded.writeTimerLow (h : p.Bounded) (value : UInt8) :
    (p.writeTimerLow value).Bounded :=
  ⟨low_period_le h.period value, h.timer, h.envelope, h.length, h.sweep, h.idle⟩

theorem Bounded.writeTimerHigh (h : p.Bounded) (value : UInt8) :
    (p.writeTimerHigh value).Bounded :=
  ⟨high_period_le p.period value, h.timer, h.envelope.restart, h.length.load value p.enabled,
    ⟨h.sweep.shift, h.sweep.period, h.sweep.divider⟩, h.idle.load value⟩

theorem Bounded.setEnabled (h : p.Bounded) (enabled : Bool) : (p.setEnabled enabled).Bounded :=
  ⟨h.period, h.timer, h.envelope, h.length.gate enabled, h.sweep, idle_gate enabled p.length⟩

theorem Bounded.clock (h : p.Bounded) (c : FrameClock) : (p.clock c).Bounded := by
  have hquarter : (if c.quarter then { p with envelope := p.envelope.clock } else p).Bounded := by
    split
    · exact ⟨h.period, h.timer, h.envelope.clock, h.length, h.sweep, h.idle⟩
    · exact h
  unfold Pulse.clock
  generalize (if c.quarter then { p with envelope := p.envelope.clock } else p) = q at hquarter ⊢
  dsimp only
  split
  · exact ⟨Sweep.period_clock_le hquarter.period, hquarter.timer, hquarter.envelope,
      hquarter.length.clock q.envelope.looping, hquarter.sweep.clock q.period,
      hquarter.idle.clock q.envelope.looping⟩
  · exact hquarter

theorem Bounded.level_le (h : p.Bounded) : p.level ≤ 15 := by
  unfold level
  split
  · exact h.envelope.volume_le
  · exact Nat.zero_le _

theorem Bounded.sample (h : p.Bounded) : p.sample.1 ≤ 15 ∧ p.sample.2.Bounded := by
  have hstep : 2 * (p.period + 1) ≤ longestStep := by
    have hperiod := h.period
    unfold longestStep
    omega
  have htimer := p.timer.bounded_tick hstep
  unfold Pulse.sample
  dsimp only
  -- what the timer counts stays closed
  generalize p.timer.tick (2 * (p.period + 1)) = ticked at htimer ⊢
  have hnext : Bounded { p with timer := ticked.2, step := wrap (p.step + ticked.1) } :=
    ⟨h.period, htimer, h.envelope, h.length, h.sweep, h.idle⟩
  exact ⟨hnext.level_le, hnext⟩

theorem slice_eq (p : Pulse) (c : FrameClock) :
    p.slice c = takeSamples sample (p.clock c) #[] sliceSamples := rfl

theorem size_slice (p : Pulse) (c : FrameClock) : (p.slice c).1.size = sliceSamples := by
  rw [slice_eq, size_takeSamples]
  exact Nat.zero_add sliceSamples

theorem Bounded.slice (h : p.Bounded) (c : FrameClock) :
    (∀ level ∈ (p.slice c).1, level ≤ 15) ∧ (p.slice c).2.Bounded := by
  rw [slice_eq]
  exact takeSamples_bounded (fun _ h => h.sample) (h.clock c) (by simp) sliceSamples

end Pulse

/-! ## The triangle channel -/

structure Triangle.Bounded (t : Triangle) : Prop where
  linearPeriod : t.linearPeriod ≤ 127
  linear : t.linear ≤ 127
  period : t.period ≤ maxPeriod
  timer : t.timer.Bounded
  length : t.length.Bounded
  idle : Idle t.enabled t.length

namespace Triangle

variable {t : Triangle}

theorem bounded_new : ({} : Triangle).Bounded :=
  ⟨by decide, by decide, by decide, SampleTimer.bounded_new,
    Nat.zero_le _, fun _ => rfl⟩

theorem Bounded.writeLinear (h : t.Bounded) (value : UInt8) : (t.writeLinear value).Bounded := by
  have hperiod : value.toNat % 128 ≤ 127 := by omega
  exact ⟨hperiod, h.linear, h.period, h.timer, h.length, h.idle⟩

theorem Bounded.writeTimerLow (h : t.Bounded) (value : UInt8) :
    (t.writeTimerLow value).Bounded :=
  ⟨h.linearPeriod, h.linear, low_period_le h.period value, h.timer, h.length, h.idle⟩

theorem Bounded.writeTimerHigh (h : t.Bounded) (value : UInt8) :
    (t.writeTimerHigh value).Bounded :=
  ⟨h.linearPeriod, h.linear, high_period_le t.period value, h.timer,
    h.length.load value t.enabled, h.idle.load value⟩

theorem Bounded.setEnabled (h : t.Bounded) (enabled : Bool) : (t.setEnabled enabled).Bounded :=
  ⟨h.linearPeriod, h.linear, h.period, h.timer, h.length.gate enabled, idle_gate enabled t.length⟩

theorem Bounded.clockLinear (h : t.Bounded) : t.clockLinear.Bounded := by
  have hlinear : (if t.linearReload then t.linearPeriod else t.linear - 1) ≤ 127 := by
    split
    · exact h.linearPeriod
    · exact Nat.le_trans (Nat.sub_le _ _) h.linear
  exact ⟨h.linearPeriod, hlinear, h.period, h.timer, h.length, h.idle⟩

theorem Bounded.clock (h : t.Bounded) (c : FrameClock) : (t.clock c).Bounded := by
  have hquarter : (if c.quarter then t.clockLinear else t).Bounded := by
    split
    · exact h.clockLinear
    · exact h
  unfold Triangle.clock
  generalize (if c.quarter then t.clockLinear else t) = u at hquarter ⊢
  dsimp only
  split
  · exact ⟨hquarter.linearPeriod, hquarter.linear, hquarter.period, hquarter.timer,
      hquarter.length.clock u.control, hquarter.idle.clock u.control⟩
  · exact hquarter

theorem level_le (t : Triangle) : t.level ≤ 15 := by
  have hstep := t.step.isLt
  unfold level
  split <;> omega

theorem Bounded.sample (h : t.Bounded) : t.sample.1 ≤ 15 ∧ t.sample.2.Bounded := by
  have hstep : t.period + 1 ≤ longestStep := by
    have hperiod := h.period
    unfold longestStep
    omega
  have htimer := t.timer.bounded_tick hstep
  unfold Triangle.sample
  dsimp only
  generalize t.timer.tick (t.period + 1) = ticked at htimer ⊢
  have hnext : Bounded { t with timer := ticked.2, step := wrap (t.step + ticked.1) } :=
    ⟨h.linearPeriod, h.linear, h.period, htimer, h.length, h.idle⟩
  split
  · exact ⟨level_le _, hnext⟩
  · exact ⟨level_le t, h⟩

theorem slice_eq (t : Triangle) (c : FrameClock) :
    t.slice c = takeSamples sample (t.clock c) #[] sliceSamples := rfl

theorem size_slice (t : Triangle) (c : FrameClock) : (t.slice c).1.size = sliceSamples := by
  rw [slice_eq, size_takeSamples]
  exact Nat.zero_add sliceSamples

theorem Bounded.slice (h : t.Bounded) (c : FrameClock) :
    (∀ level ∈ (t.slice c).1, level ≤ 15) ∧ (t.slice c).2.Bounded := by
  rw [slice_eq]
  exact takeSamples_bounded (fun _ h => h.sample) (h.clock c) (by simp) sliceSamples

end Triangle

/-! ## The noise channel -/

structure Noise.Bounded (n : Noise) : Prop where
  register_pos : n.register ≠ 0
  register_lt : n.register.toNat < 0x8000
  timer : n.timer.Bounded
  envelope : n.envelope.Bounded
  length : n.length.Bounded
  idle : Idle n.enabled n.length

namespace Noise

variable {n : Noise}

theorem bounded_new : ({} : Noise).Bounded :=
  ⟨by decide, by decide, SampleTimer.bounded_new,
    Envelope.bounded_new, Nat.zero_le _, fun _ => rfl⟩

/-- A shift keeps fifteen bits, not all zero: the last bit that is set comes in again at the top,
    whichever bit is the other tap. -/
theorem shifted_bounds (short : Bool) {register : UInt16} (hpos : register ≠ 0)
    (hlt : register.toNat < 0x8000) :
    shifted short register ≠ 0 ∧ (shifted short register).toNat < 0x8000 := by
  by_cases hone : register = 1
  · subst hone
    cases short <;> decide
  -- otherwise a bit is left after the shift
  have htwo : 2 ≤ register.toNat := by
    have hzero : register.toNat ≠ 0 := fun h => hpos (UInt16.toNat_inj.mp h)
    have hne : register.toNat ≠ 1 := fun h => hone (UInt16.toNat_inj.mp h)
    omega
  unfold shifted
  dsimp only
  generalize register ^^^ (if short then register >>> 6 else register >>> 1) = mixed
  have hfed : (mixed &&& 1).toNat ≤ 1 := by
    rw [UInt16.toNat_and]
    exact Nat.and_le_right
  have hhalf : (register >>> 1).toNat = register.toNat / 2 := by
    rw [UInt16.toNat_shiftRight]
    rfl
  have htop : ((mixed &&& 1) <<< 14).toNat < 2 ^ 15 := by
    rw [UInt16.toNat_shiftLeft, Nat.shiftLeft_eq]
    have hpow : (mixed &&& 1).toNat * 2 ^ ((14 : UInt16).toNat % 16) ≤ 1 * 2 ^ 14 :=
      Nat.mul_le_mul_right _ hfed
    omega
  have hor : (register >>> 1 ||| (mixed &&& 1) <<< 14).toNat =
      register.toNat / 2 ||| ((mixed &&& 1) <<< 14).toNat := by
    rw [UInt16.toNat_or, hhalf]
  have hleft : register.toNat / 2 ≤ register.toNat / 2 ||| ((mixed &&& 1) <<< 14).toNat :=
    Nat.left_le_or
  refine ⟨fun hzero => ?_, ?_⟩
  · rw [hzero] at hor
    have hnone : (0 : UInt16).toNat = 0 := rfl
    omega
  · rw [hor]
    exact Nat.or_lt_two_pow (by omega) htop

theorem shiftedBy_bounds (short : Bool) {register : UInt16} (hpos : register ≠ 0)
    (hlt : register.toNat < 0x8000) (count : Nat) :
    shiftedBy short register count ≠ 0 ∧ (shiftedBy short register count).toNat < 0x8000 := by
  induction count generalizing register with
  | zero => exact ⟨hpos, hlt⟩
  | succ count ih =>
    obtain ⟨hpos, hlt⟩ := shifted_bounds short hpos hlt
    exact ih hpos hlt

theorem Bounded.writeControl (h : n.Bounded) (value : UInt8) : (n.writeControl value).Bounded :=
  ⟨h.register_pos, h.register_lt, h.timer, h.envelope.write value, h.length, h.idle⟩

theorem Bounded.writePeriod (h : n.Bounded) (value : UInt8) : (n.writePeriod value).Bounded :=
  ⟨h.register_pos, h.register_lt, h.timer, h.envelope, h.length, h.idle⟩

theorem Bounded.writeLength (h : n.Bounded) (value : UInt8) : (n.writeLength value).Bounded :=
  ⟨h.register_pos, h.register_lt, h.timer, h.envelope.restart, h.length.load value n.enabled,
    h.idle.load value⟩

theorem Bounded.setEnabled (h : n.Bounded) (enabled : Bool) : (n.setEnabled enabled).Bounded :=
  ⟨h.register_pos, h.register_lt, h.timer, h.envelope, h.length.gate enabled,
    idle_gate enabled n.length⟩

theorem Bounded.clock (h : n.Bounded) (c : FrameClock) : (n.clock c).Bounded := by
  have hquarter : (if c.quarter then { n with envelope := n.envelope.clock } else n).Bounded := by
    split
    · exact ⟨h.register_pos, h.register_lt, h.timer, h.envelope.clock, h.length, h.idle⟩
    · exact h
  unfold Noise.clock
  generalize (if c.quarter then { n with envelope := n.envelope.clock } else n) = m at hquarter ⊢
  dsimp only
  split
  · exact ⟨hquarter.register_pos, hquarter.register_lt, hquarter.timer, hquarter.envelope,
      hquarter.length.clock m.envelope.looping, hquarter.idle.clock m.envelope.looping⟩
  · exact hquarter

theorem Bounded.level_le (h : n.Bounded) : n.level ≤ 15 := by
  unfold level
  split
  · exact h.envelope.volume_le
  · exact Nat.zero_le _

theorem periods_le (index : Fin 16) : periods.get index ≤ longestStep := by
  revert index
  decide

theorem Bounded.sample (h : n.Bounded) : n.sample.1 ≤ 15 ∧ n.sample.2.Bounded := by
  have htimer := n.timer.bounded_tick (periods_le n.periodIndex)
  unfold Noise.sample
  dsimp only
  generalize n.timer.tick (periods.get n.periodIndex) = ticked at htimer ⊢
  obtain ⟨hpos, hlt⟩ := shiftedBy_bounds n.short h.register_pos h.register_lt ticked.1
  have hnext : Bounded
      { n with timer := ticked.2, register := shiftedBy n.short n.register ticked.1 } :=
    ⟨hpos, hlt, htimer, h.envelope, h.length, h.idle⟩
  exact ⟨hnext.level_le, hnext⟩

theorem slice_eq (n : Noise) (c : FrameClock) :
    n.slice c = takeSamples sample (n.clock c) #[] sliceSamples := rfl

theorem size_slice (n : Noise) (c : FrameClock) : (n.slice c).1.size = sliceSamples := by
  rw [slice_eq, size_takeSamples]
  exact Nat.zero_add sliceSamples

theorem Bounded.slice (h : n.Bounded) (c : FrameClock) :
    (∀ level ∈ (n.slice c).1, level ≤ 15) ∧ (n.slice c).2.Bounded := by
  rw [slice_eq]
  exact takeSamples_bounded (fun _ h => h.sample) (h.clock c) (by simp) sliceSamples

end Noise

/-! ## The delta modulation channel -/

/-- A reader that need not give the same byte at an address each time: what it gives may depend on
    all the addresses that it was asked for before. -/
abbrev Reader := Array UInt16 → UInt16 → UInt8

/-- The longest sample has 255 times 16 bytes and one more. -/
def longestSample : Nat := 255 * 16 + 1

structure Dmc.Bounded (d : Dmc) : Prop where
  level : d.level ≤ 127
  sampleLength : d.sampleLength ≤ longestSample
  remaining : d.remaining ≤ longestSample
  bitsLeft : d.bitsLeft ≤ 8
  timer : d.timer.Bounded

namespace Dmc

/-- The channel when the next bit is due: a byte is fetched first if none is left. -/
def ready (ask : Reader) (d : Dmc) (fetched : Array UInt16) : Array UInt16 × Dmc :=
  if d.bitsLeft = 0 then
    if d.active then (fetched.push d.address, d.accept (ask fetched d.address))
    else (fetched, { d with bitsLeft := 8, silence := true })
  else (fetched, d)

/-- Plays `count` bits, whatever the reader. -/
def playBitsFrom (ask : Reader) (d : Dmc) (fetched : Array UInt16) :
    (count : Nat) → Array UInt16 × Dmc
  | 0 => (fetched, d)
  | count + 1 =>
    let next := d.ready ask fetched
    playBitsFrom ask next.2.playBit next.1 count

/-- Takes `count` samples; how time passes and how bits are played is left open. -/
def takeLevelsWith (tick : SampleTimer → Nat → Nat × SampleTimer)
    (play : Dmc → Array UInt16 → Nat → Array UInt16 × Dmc) (d : Dmc) (out : Played) :
    (count : Nat) → Played × Dmc
  | 0 => (out, d)
  | count + 1 =>
    let (steps, timer) := tick d.timer (rates.get d.rateIndex)
    let (fetched, d) := play { d with timer } out.fetched steps
    takeLevelsWith tick play d { levels := out.levels.push d.level, fetched } count

/-- The levels of one slice, whatever the reader. -/
def sliceFrom (d : Dmc) (ask : Reader) : Played × Dmc :=
  takeLevelsWith SampleTimer.tick (playBitsFrom ask) d {} sliceSamples

theorem playBits_eq (reader : UInt16 → UInt8) (d : Dmc) (fetched : Array UInt16) (count : Nat) :
    playBits reader d fetched count = playBitsFrom (fun _ => reader) d fetched count := by
  induction count generalizing d fetched with
  | zero => rfl
  | succ count ih =>
    unfold playBits playBitsFrom ready
    split
    · split
      · exact ih _ _
      · exact ih _ _
    · exact ih _ _

theorem takeLevels_eq (reader : UInt16 → UInt8) (d : Dmc) (out : Played) (count : Nat) :
    takeLevels reader d out count =
      takeLevelsWith SampleTimer.tick (playBits reader) d out count := by
  delta takeLevels takeLevelsWith
  rfl

/-- A reader that gives the same byte each time. -/
theorem slice_eq (d : Dmc) (reader : UInt16 → UInt8) :
    d.slice reader = d.sliceFrom fun _ => reader := by
  have hplay : playBits reader = playBitsFrom fun _ => reader := by
    funext d fetched count
    exact playBits_eq reader d fetched count
  unfold slice sliceFrom
  rw [takeLevels_eq, hplay]

variable {d : Dmc}

theorem bounded_new : ({} : Dmc).Bounded :=
  ⟨Nat.zero_le _, by decide, Nat.zero_le _, Nat.zero_le _, SampleTimer.bounded_new⟩

theorem Bounded.writeControl (h : d.Bounded) (value : UInt8) : (d.writeControl value).Bounded :=
  ⟨h.level, h.sampleLength, h.remaining, h.bitsLeft, h.timer⟩

theorem Bounded.writeLevel (h : d.Bounded) (value : UInt8) : (d.writeLevel value).Bounded := by
  have hlevel : value.toNat % 128 ≤ 127 := by omega
  exact ⟨hlevel, h.sampleLength, h.remaining, h.bitsLeft, h.timer⟩

theorem Bounded.writeAddress (h : d.Bounded) (value : UInt8) : (d.writeAddress value).Bounded :=
  ⟨h.level, h.sampleLength, h.remaining, h.bitsLeft, h.timer⟩

theorem Bounded.writeLength (h : d.Bounded) (value : UInt8) : (d.writeLength value).Bounded := by
  have hvalue := value.toNat_lt
  have hlength : value.toNat * 16 + 1 ≤ longestSample := by
    unfold longestSample
    omega
  exact ⟨h.level, hlength, h.remaining, h.bitsLeft, h.timer⟩

theorem Bounded.restart (h : d.Bounded) : d.restart.Bounded :=
  ⟨h.level, h.sampleLength, h.sampleLength, h.bitsLeft, h.timer⟩

theorem Bounded.setEnabled (h : d.Bounded) (enabled : Bool) : (d.setEnabled enabled).Bounded := by
  have hirq : Bounded { d with irq := false } :=
    ⟨h.level, h.sampleLength, h.remaining, h.bitsLeft, h.timer⟩
  unfold Dmc.setEnabled
  dsimp only
  split
  · exact ⟨h.level, h.sampleLength, Nat.zero_le _, h.bitsLeft, h.timer⟩
  · split
    · exact hirq.restart
    · exact hirq

theorem Bounded.accept (h : d.Bounded) (value : UInt8) : (d.accept value).Bounded := by
  have hremaining : d.remaining - 1 ≤ longestSample := Nat.le_trans (Nat.sub_le _ _) h.remaining
  have htaken : Bounded { d with
      bitsLeft := 8, shift := value, silence := false
      address := following d.address, remaining := d.remaining - 1 } :=
    ⟨h.level, h.sampleLength, hremaining, Nat.le_refl 8, h.timer⟩
  unfold Dmc.accept
  dsimp only
  split
  · split
    · exact htaken.restart
    · exact ⟨h.level, h.sampleLength, hremaining, Nat.le_refl 8, h.timer⟩
  · exact htaken

theorem bitsLeft_accept (d : Dmc) (value : UInt8) : (d.accept value).bitsLeft = 8 := by
  unfold Dmc.accept Dmc.restart
  dsimp only
  split
  · split <;> rfl
  · rfl

/-- There is a bit to play. -/
theorem Bounded.ready (h : d.Bounded) (ask : Reader) (fetched : Array UInt16) :
    (d.ready ask fetched).2.Bounded ∧ 0 < (d.ready ask fetched).2.bitsLeft := by
  unfold Dmc.ready
  split
  · split
    · refine ⟨h.accept _, ?_⟩
      rw [bitsLeft_accept]
      decide
    · have hnext : Bounded { d with bitsLeft := 8, silence := true } :=
        ⟨h.level, h.sampleLength, h.remaining, Nat.le_refl 8, h.timer⟩
      exact ⟨hnext, Nat.zero_lt_succ 7⟩
  · next some => exact ⟨h, Nat.pos_of_ne_zero some⟩

theorem Bounded.playBit (h : d.Bounded) : d.playBit.Bounded := by
  have hlevel : d.playBit.level ≤ 127 := by
    have hlevel := h.level
    unfold Dmc.playBit
    dsimp only
    split
    · exact hlevel
    · split
      · split <;> omega
      · split <;> omega
  have hbits : d.bitsLeft - 1 ≤ 8 := Nat.le_trans (Nat.sub_le _ _) h.bitsLeft
  exact ⟨hlevel, h.sampleLength, h.remaining, hbits, h.timer⟩

theorem Bounded.playBitsFrom (h : d.Bounded) (ask : Reader) (fetched : Array UInt16)
    (count : Nat) : (Dmc.playBitsFrom ask d fetched count).2.Bounded := by
  induction count generalizing d fetched with
  | zero => exact h
  | succ count ih => exact ih (h.ready ask fetched).1.playBit _

theorem rates_le (index : Fin 16) : rates.get index ≤ longestStep := by
  revert index
  decide

theorem Bounded.takeLevelsWith (h : d.Bounded)
    {tick : SampleTimer → Nat → Nat × SampleTimer}
    (htick : ∀ timer period, period ≤ longestStep → (tick timer period).2.Bounded) (ask : Reader)
    {out : Played} (hout : ∀ level ∈ out.levels, level ≤ 127) (count : Nat) :
    (∀ level ∈ (Dmc.takeLevelsWith tick (Dmc.playBitsFrom ask) d out count).1.levels,
        level ≤ 127) ∧
      (Dmc.takeLevelsWith tick (Dmc.playBitsFrom ask) d out count).2.Bounded := by
  induction count generalizing d out with
  | zero => exact ⟨hout, h⟩
  | succ count ih =>
    have htimer := htick d.timer _ (rates_le d.rateIndex)
    unfold Dmc.takeLevelsWith
    dsimp only
    generalize tick d.timer (rates.get d.rateIndex) = ticked at htimer ⊢
    have hticked : Bounded { d with timer := ticked.2 } :=
      ⟨h.level, h.sampleLength, h.remaining, h.bitsLeft, htimer⟩
    have hplayed := hticked.playBitsFrom ask out.fetched ticked.1
    refine ih hplayed fun level hmem => ?_
    rcases Array.mem_push.mp hmem with hmem | rfl
    · exact hout level hmem
    · exact hplayed.level

theorem Bounded.sliceFrom (h : d.Bounded) (ask : Reader) :
    (∀ level ∈ (d.sliceFrom ask).1.levels, level ≤ 127) ∧ (d.sliceFrom ask).2.Bounded := by
  unfold Dmc.sliceFrom
  exact h.takeLevelsWith (fun timer _ => timer.bounded_tick) ask (by simp) sliceSamples

theorem size_takeLevelsWith (tick : SampleTimer → Nat → Nat × SampleTimer)
    (play : Dmc → Array UInt16 → Nat → Array UInt16 × Dmc) (d : Dmc) (out : Played)
    (count : Nat) :
    (Dmc.takeLevelsWith tick play d out count).1.levels.size = out.levels.size + count := by
  induction count generalizing d out with
  | zero => rfl
  | succ count ih =>
    unfold Dmc.takeLevelsWith
    dsimp only
    rw [ih, Array.size_push]
    omega

theorem size_sliceFrom (d : Dmc) (ask : Reader) :
    (d.sliceFrom ask).1.levels.size = sliceSamples := by
  unfold Dmc.sliceFrom
  rw [size_takeLevelsWith]
  exact Nat.zero_add sliceSamples

end Dmc

/-! ## The sequencer and the whole chip -/

/-- Steps of the sequence. -/
def FrameMode.steps : FrameMode → Nat
  | fourStep => 4
  | fiveStep => 5

/-- The step is one of the sequence that the mode gives. -/
def Sequencer.Bounded (s : Sequencer) : Prop := s.step < s.mode.steps

namespace Sequencer

variable {s : Sequencer}

theorem bounded_write (s : Sequencer) (value : UInt8) : (s.write value).Bounded := by
  have hpos : ∀ mode : FrameMode, 0 < mode.steps := fun mode => by cases mode <;> decide
  exact hpos _

theorem bounded_next (s : Sequencer) : s.next.2.Bounded := by
  unfold Bounded next
  cases hmode : s.mode with
  | fourStep => exact Nat.mod_lt _ (by decide)
  | fiveStep => exact Nat.mod_lt _ (by decide)

end Sequencer

structure Apu.Bounded (apu : Apu) : Prop where
  pulse1 : apu.pulse1.Bounded
  pulse2 : apu.pulse2.Bounded
  triangle : apu.triangle.Bounded
  noise : apu.noise.Bounded
  dmc : apu.dmc.Bounded
  sequencer : apu.sequencer.Bounded

namespace Apu

variable {apu : Apu}

theorem bounded_new : ({} : Apu).Bounded :=
  ⟨Pulse.bounded_silent _, Pulse.bounded_silent _, Triangle.bounded_new, Noise.bounded_new,
    Dmc.bounded_new, Nat.zero_lt_succ 3⟩

theorem Bounded.writeStatus (h : apu.Bounded) (value : UInt8) : (apu.writeStatus value).Bounded :=
  ⟨h.pulse1.setEnabled _, h.pulse2.setEnabled _, h.triangle.setEnabled _, h.noise.setEnabled _,
    h.dmc.setEnabled _, h.sequencer⟩

theorem Bounded.writeRegister (h : apu.Bounded) (register : ApuRegister) (value : UInt8) :
    (apu.writeRegister register value).Bounded := by
  obtain ⟨pulse1, pulse2, triangle, noise, dmc, sequencer⟩ := h
  cases register with
  | pulse1Control => exact ⟨pulse1.writeControl value, pulse2, triangle, noise, dmc, sequencer⟩
  | pulse1Sweep => exact ⟨pulse1.writeSweep value, pulse2, triangle, noise, dmc, sequencer⟩
  | pulse1TimerLow => exact ⟨pulse1.writeTimerLow value, pulse2, triangle, noise, dmc, sequencer⟩
  | pulse1TimerHigh =>
    exact ⟨pulse1.writeTimerHigh value, pulse2, triangle, noise, dmc, sequencer⟩
  | pulse2Control => exact ⟨pulse1, pulse2.writeControl value, triangle, noise, dmc, sequencer⟩
  | pulse2Sweep => exact ⟨pulse1, pulse2.writeSweep value, triangle, noise, dmc, sequencer⟩
  | pulse2TimerLow => exact ⟨pulse1, pulse2.writeTimerLow value, triangle, noise, dmc, sequencer⟩
  | pulse2TimerHigh =>
    exact ⟨pulse1, pulse2.writeTimerHigh value, triangle, noise, dmc, sequencer⟩
  | triangleLinear => exact ⟨pulse1, pulse2, triangle.writeLinear value, noise, dmc, sequencer⟩
  | triangleTimerLow =>
    exact ⟨pulse1, pulse2, triangle.writeTimerLow value, noise, dmc, sequencer⟩
  | triangleTimerHigh =>
    exact ⟨pulse1, pulse2, triangle.writeTimerHigh value, noise, dmc, sequencer⟩
  | noiseControl => exact ⟨pulse1, pulse2, triangle, noise.writeControl value, dmc, sequencer⟩
  | noisePeriod => exact ⟨pulse1, pulse2, triangle, noise.writePeriod value, dmc, sequencer⟩
  | noiseLength => exact ⟨pulse1, pulse2, triangle, noise.writeLength value, dmc, sequencer⟩
  | dmcControl => exact ⟨pulse1, pulse2, triangle, noise, dmc.writeControl value, sequencer⟩
  | dmcLevel => exact ⟨pulse1, pulse2, triangle, noise, dmc.writeLevel value, sequencer⟩
  | dmcAddress => exact ⟨pulse1, pulse2, triangle, noise, dmc.writeAddress value, sequencer⟩
  | dmcLength => exact ⟨pulse1, pulse2, triangle, noise, dmc.writeLength value, sequencer⟩
  | status => exact Bounded.writeStatus ⟨pulse1, pulse2, triangle, noise, dmc, sequencer⟩ value
  | frameCounter =>
    exact ⟨pulse1, pulse2, triangle, noise, dmc, apu.sequencer.bounded_write value⟩

theorem Bounded.write (h : apu.Bounded) (addr : UInt16) (value : UInt8) :
    (apu.write addr value).Bounded := by
  unfold Apu.write
  split
  · exact h.writeRegister _ value
  · exact h

theorem Bounded.clearIrq (h : apu.Bounded) :
    Bounded { apu with sequencer := apu.sequencer.clearIrq } :=
  ⟨h.pulse1, h.pulse2, h.triangle, h.noise, h.dmc, h.sequencer⟩

theorem Bounded.readStatus (h : apu.Bounded) : apu.readStatus.2.Bounded := h.clearIrq

theorem Bounded.reset (h : apu.Bounded) (kind : ResetKind) : (apu.reset kind).Bounded := by
  cases kind with
  | power => exact bounded_new
  | soft => exact (h.writeStatus 0).clearIrq

/-- What the slices of the channels give together. -/
def joined (pulse1 pulse2 : Array Nat × Pulse) (triangle : Array Nat × Triangle)
    (noise : Array Nat × Noise) (dmc : Dmc.Played × Dmc) (sequencer : Sequencer) : Slice × Apu :=
  (⟨mixLevels pulse1.1 pulse2.1 triangle.1 noise.1 dmc.1.levels, dmc.1.fetched⟩,
    ⟨pulse1.2, pulse2.2, triangle.2, noise.2, dmc.2, sequencer⟩)

/-- `slice`, whatever the reader. -/
def sliceFrom (apu : Apu) (ask : Reader) : Slice × Apu :=
  joined (apu.pulse1.slice apu.sequencer.next.1) (apu.pulse2.slice apu.sequencer.next.1)
    (apu.triangle.slice apu.sequencer.next.1) (apu.noise.slice apu.sequencer.next.1)
    (apu.dmc.sliceFrom ask) apu.sequencer.next.2

/-- A reader that gives the same byte each time. -/
theorem slice_eq (apu : Apu) (reader : UInt16 → UInt8) :
    apu.slice reader = apu.sliceFrom fun _ => reader := by
  unfold slice sliceFrom joined
  rw [Dmc.slice_eq]

theorem bounded_joined {pulse1 pulse2 : Array Nat × Pulse} {triangle : Array Nat × Triangle}
    {noise : Array Nat × Noise} {dmc : Dmc.Played × Dmc} {sequencer : Sequencer}
    (hpulse1 : pulse1.2.Bounded) (hpulse2 : pulse2.2.Bounded) (htriangle : triangle.2.Bounded)
    (hnoise : noise.2.Bounded) (hdmc : dmc.2.Bounded) (hsequencer : sequencer.Bounded) :
    (joined pulse1 pulse2 triangle noise dmc sequencer).2.Bounded :=
  ⟨hpulse1, hpulse2, htriangle, hnoise, hdmc, hsequencer⟩

theorem Bounded.sliceFrom (h : apu.Bounded) (ask : Reader) : (apu.sliceFrom ask).2.Bounded :=
  bounded_joined (h.pulse1.slice _).2 (h.pulse2.slice _).2 (h.triangle.slice _).2
    (h.noise.slice _).2 (h.dmc.sliceFrom ask).2 apu.sequencer.bounded_next

end Apu
end Nes
