/-
  The sound chip in arithmetic that does not go on when a result does not fit.

  The chip's functions compute with natural numbers. Beside each of them that adds, subtracts,
  multiplies, divides, shifts a period or looks up the mixer's tables stands a checked one (with a
  question mark in its name): counters have 8 bits, periods, targets and addresses 16, and all that
  the timers handle 32. The checked mixer adds the levels of the pulse channels in 8 bits and looks
  its tables up without folding an index into them.

  Within the bounds of `Apu.Bounded` the checked functions give what the plain ones give
  (`Apu.slice?_eq`). So nothing overflows and nothing underflows, and the mixer never meets an index
  that it would have to fold.
-/
import Nes.Proofs.Apu.Bounds
import Nes.Proofs.Checked

namespace Nes

open Checked

/-! ## Timers and samples -/

namespace SampleTimer

/-- `tick`, checked. -/
def tick? (timer : SampleTimer) (period : Nat) : Option (Nat × SampleTimer) := do
  let length ← mul? longTop (max period 1) cycleUnit
  let total ← add? longTop timer.rest sampleUnits
  let result ← divMod? total length
  return (result.1, ⟨result.2⟩)

theorem tick?_eq {timer : SampleTimer} (h : timer.Bounded) {period : Nat}
    (hperiod : period ≤ longestStep) : timer.tick? period = some (timer.tick period) := by
  have hmax : max period 1 ≤ longestStep := by
    unfold longestStep maxPeriod at *
    omega
  have hlength : max period 1 * cycleUnit ≤ longTop :=
    Nat.le_trans (Nat.mul_le_mul_right cycleUnit hmax) (by decide)
  have hpos : 0 < max period 1 * cycleUnit := Nat.mul_pos (by omega) (by decide)
  have htotal : timer.rest + sampleUnits ≤ longTop := by
    have hrest : timer.rest ≤ longestStep * cycleUnit := Nat.le_of_lt h
    exact Nat.le_trans (Nat.add_le_add_right hrest sampleUnits) (by decide)
  unfold tick? tick
  refine (bind_some (mul?_eq hlength)).trans ?_
  refine (bind_some (add?_eq htotal)).trans ?_
  exact bind_some (divMod?_eq hpos)

/-- Even of the shortest steps there are not many in a sample. -/
theorem steps_le {timer : SampleTimer} (h : timer.Bounded) (period : Nat) :
    (timer.tick period).1 ≤ 0xFFFF := by
  have htotal : timer.rest + sampleUnits ≤ cycleUnit * 0xFFFF := by
    have hrest : timer.rest ≤ longestStep * cycleUnit := Nat.le_of_lt h
    exact Nat.le_trans (Nat.add_le_add_right hrest sampleUnits) (by decide)
  have hlength : cycleUnit ≤ max period 1 * cycleUnit := Nat.le_mul_of_pos_left _ (by omega)
  show (timer.rest + sampleUnits) / (max period 1 * cycleUnit) ≤ 0xFFFF
  exact Nat.div_le_of_le_mul (Nat.le_trans htotal (Nat.mul_le_mul_right _ hlength))

end SampleTimer

/-- `takeSamples`, checked. -/
def takeSamples? {S : Type} (sample? : S → Option (Nat × S)) (channel : S) (out : Array Nat) :
    (count : Nat) → Option (Array Nat × S)
  | 0 => some (out, channel)
  | count + 1 => do
    let result ← sample? channel
    takeSamples? sample? result.2 (out.push result.1) count

/-- If no sample fails as long as `P` holds, and `P` goes on to hold, no row of samples fails. -/
theorem takeSamples?_eq {S : Type} {sample? : S → Option (Nat × S)} {sample : S → Nat × S}
    {P : S → Prop}
    (step : ∀ channel, P channel → sample? channel = some (sample channel) ∧ P (sample channel).2)
    {channel : S} (h : P channel) (out : Array Nat) (count : Nat) :
    takeSamples? sample? channel out count = some (takeSamples sample channel out count) := by
  induction count generalizing channel out with
  | zero => rfl
  | succ count ih =>
    obtain ⟨hsample, hnext⟩ := step channel h
    unfold takeSamples?
    rw [hsample]
    exact ih hnext _

/-! ## Envelopes and length counters -/

/-- `clock`, checked. -/
def Envelope.clock? (e : Envelope) : Option Envelope :=
  if e.start then some { e with start := false, decay := 15, divider := e.param }
  else if 0 < e.divider then do
    let divider ← sub? e.divider 1
    return { e with divider }
  else if e.decay = 0 then
    some { e with divider := e.param, decay := if e.looping then 15 else 0 }
  else do
    let decay ← sub? e.decay 1
    return { e with divider := e.param, decay }

theorem Envelope.clock?_eq (e : Envelope) : e.clock? = some e.clock := by
  unfold clock? clock fall
  split
  · rfl
  · split
    · next some =>
      rw [sub?_eq some]
      rfl
    · split
      · rfl
      · next some =>
        rw [sub?_eq (Nat.pos_of_ne_zero some)]
        rfl

/-- `clock`, checked. -/
def LengthCounter.clock? (counter : LengthCounter) (halt : Bool) : Option LengthCounter :=
  if !halt && decide (0 < counter.value) then do
    let value ← sub? counter.value 1
    return ⟨value⟩
  else some counter

theorem LengthCounter.clock?_eq (counter : LengthCounter) (halt : Bool) :
    counter.clock? halt = some (counter.clock halt) := by
  obtain ⟨value⟩ := counter
  unfold clock? clock
  cases halt with
  | true => rfl
  | false =>
    by_cases some : 0 < value
    · simp [some, sub?_eq (show 1 ≤ value from some)]
    · have hzero : value = 0 := by omega
      subst hzero
      rfl

/-! ## Pulse channels -/

namespace Sweep

/-- `target`, checked. A difference that would be negative is zero on the chip, too. -/
def target? (s : Sweep) (period : Nat) : Option Nat := do
  let delta ← shiftRight? 16 period s.shift
  if !s.down then add? wordTop period delta
  else match s.negation with
    | .onesComplement => do
      let less ← add? wordTop delta 1
      return period - less
    | .twosComplement => return period - delta

/-- `mutes`, checked. -/
def mutes? (s : Sweep) (period : Nat) : Option Bool :=
  if period < 8 then some true
  else do
    let target ← s.target? period
    return maxPeriod < target

/-- `clock`, checked. The target is only looked at when the period may change. -/
def clock? (s : Sweep) (period : Nat) : Option (Nat × Sweep) := do
  let mutes ←
    if s.divider == 0 && s.enabled && decide (0 < s.shift) then s.mutes? period else some true
  let next ← if mutes then some period else s.target? period
  if s.divider = 0 ∨ s.reload then return (next, { s with divider := s.period, reload := false })
  else do
    let divider ← sub? s.divider 1
    return (next, { s with divider })

variable {s : Sweep} {period : Nat}

theorem target?_eq (h : s.Bounded) (hperiod : period ≤ maxPeriod) :
    s.target? period = some (s.target period) := by
  have hshift : s.shift < 16 := Nat.lt_of_le_of_lt h.shift (by decide)
  have hdelta : period >>> s.shift ≤ maxPeriod :=
    Nat.le_trans (Nat.shiftRight_le period s.shift) hperiod
  have hsum : period + period >>> s.shift ≤ wordTop :=
    Nat.le_trans (Nat.add_le_add hperiod hdelta) (by decide)
  have hless : period >>> s.shift + 1 ≤ wordTop :=
    Nat.le_trans (Nat.add_le_add_right hdelta 1) (by decide)
  unfold target? target
  rw [shiftRight?_eq hshift]
  simp only [Option.bind_eq_bind, Option.bind_some]
  split
  · exact add?_eq hsum
  · cases s.negation with
    | onesComplement =>
      dsimp only
      rw [add?_eq hless]
      rfl
    | twosComplement => rfl

theorem mutes?_eq (h : s.Bounded) (hperiod : period ≤ maxPeriod) :
    s.mutes? period = some (s.mutes period) := by
  unfold mutes? mutes
  split
  · next short => simp [short]
  · next long =>
    rw [target?_eq h hperiod]
    simp [long]

theorem clock?_eq (h : s.Bounded) (hperiod : period ≤ maxPeriod) :
    s.clock? period = some (s.clock period) := by
  -- the divider, whatever the period becomes
  have hdivider (next : Nat) :
      (if s.divider = 0 ∨ s.reload then
          (return (next, { s with divider := s.period, reload := false }) : Option (Nat × Sweep))
        else do
          let divider ← sub? s.divider 1
          return (next, { s with divider })) =
        some (if s.divider = 0 ∨ s.reload then
            (next, { s with divider := s.period, reload := false })
          else (next, { s with divider := s.divider - 1 })) := by
    split
    · rfl
    · next running =>
      rw [sub?_eq (by omega)]
      rfl
  unfold clock? clock
  dsimp only
  cases s.divider == 0 && s.enabled && decide (0 < s.shift) with
  | false => exact hdivider period
  | true =>
    rw [if_pos rfl, mutes?_eq h hperiod]
    simp only [Option.bind_eq_bind, Option.bind_some, Bool.true_and]
    cases s.mutes period with
    | true => exact hdivider period
    | false =>
      rw [if_neg (by decide), target?_eq h hperiod]
      exact hdivider (s.target period)

end Sweep

namespace Pulse

/-- `clock`, checked. -/
def clock? (p : Pulse) (c : FrameClock) : Option Pulse := do
  let envelope ← if c.quarter then p.envelope.clock? else some p.envelope
  let p := { p with envelope }
  if c.half then do
    let length ← p.length.clock? p.envelope.looping
    let swept ← p.sweep.clock? p.period
    return { p with length, period := swept.1, sweep := swept.2 }
  else return p

/-- `level`, checked. -/
def level? (p : Pulse) : Option Nat := do
  let mutes ← if p.enabled && p.length.active then p.sweep.mutes? p.period else some true
  return if !mutes && (dutyTable.get p.duty).get p.step then p.envelope.volume else 0

/-- `sample`, checked. -/
def sample? (p : Pulse) : Option (Nat × Pulse) := do
  let cycles ← add? longTop p.period 1
  let cycles ← mul? longTop 2 cycles
  let ticked ← p.timer.tick? cycles
  let position ← add? longTop p.step ticked.1
  let p := { p with timer := ticked.2, step := wrap position }
  let level ← p.level?
  return (level, p)

/-- `slice`, checked. -/
def slice? (p : Pulse) (c : FrameClock) : Option (Array Nat × Pulse) := do
  let p ← p.clock? c
  takeSamples? sample? p #[] sliceSamples

variable {p : Pulse}

theorem clock?_eq (h : p.Bounded) (c : FrameClock) : p.clock? c = some (p.clock c) := by
  unfold clock? clock
  cases c.quarter with
  | true =>
    rw [if_pos rfl, if_pos rfl, Envelope.clock?_eq]
    simp only [Option.bind_eq_bind, Option.bind_some]
    split
    · rw [LengthCounter.clock?_eq, Sweep.clock?_eq h.sweep h.period]
      rfl
    · rfl
  | false =>
    simp only [Bool.false_eq_true, if_false, Option.bind_eq_bind, Option.bind_some]
    split
    · rw [LengthCounter.clock?_eq, Sweep.clock?_eq h.sweep h.period]
      rfl
    · rfl

theorem level?_eq (h : p.Bounded) : p.level? = some p.level := by
  unfold level? level audible
  cases p.enabled && p.length.active with
  | false => rfl
  | true =>
    rw [if_pos rfl, Sweep.mutes?_eq h.sweep h.period]
    rfl

theorem sample?_eq (h : p.Bounded) : p.sample? = some p.sample := by
  have hstep : 2 * (p.period + 1) ≤ longestStep := by
    have hperiod := h.period
    unfold longestStep
    omega
  have hlong : 2 * (p.period + 1) ≤ longTop := Nat.le_trans hstep (by decide)
  have hcycles : p.period + 1 ≤ longTop := by omega
  have htick := SampleTimer.tick?_eq h.timer hstep
  have hsteps := SampleTimer.steps_le h.timer (2 * (p.period + 1))
  have hnext := h.sample.2
  unfold sample at hnext ⊢
  -- what the timer counts stays closed
  generalize p.timer.tick (2 * (p.period + 1)) = ticked at htick hsteps hnext ⊢
  have hposition : p.step.val + ticked.1 ≤ longTop := by
    have hlt := p.step.isLt
    exact Nat.le_trans (Nat.add_le_add (Nat.le_of_lt hlt) hsteps) (by decide)
  have hlevel := level?_eq hnext
  unfold sample?
  refine (bind_some (add?_eq hcycles)).trans ?_
  refine (bind_some (mul?_eq hlong)).trans ?_
  refine (bind_some htick).trans ?_
  refine (bind_some (add?_eq hposition)).trans ?_
  exact bind_some hlevel

theorem slice?_eq (h : p.Bounded) (c : FrameClock) : p.slice? c = some (p.slice c) := by
  have step : ∀ p : Pulse, p.Bounded → p.sample? = some p.sample ∧ p.sample.2.Bounded :=
    fun p h => ⟨sample?_eq h, h.sample.2⟩
  rw [slice_eq]
  unfold slice?
  refine (bind_some (clock?_eq h c)).trans ?_
  exact takeSamples?_eq step (h.clock c) #[] sliceSamples

end Pulse

/-! ## The triangle and the noise channel -/

namespace Triangle

/-- `clockLinear`, checked. -/
def clockLinear? (t : Triangle) : Option Triangle := do
  let linear ←
    if t.linearReload then some t.linearPeriod
    else if 0 < t.linear then sub? t.linear 1
    else some t.linear
  return { t with linear, linearReload := t.linearReload && t.control }

/-- `clock`, checked. -/
def clock? (t : Triangle) (c : FrameClock) : Option Triangle := do
  let t ← if c.quarter then t.clockLinear? else some t
  let length ← if c.half then t.length.clock? t.control else some t.length
  return { t with length }

/-- `sample`, checked. -/
def sample? (t : Triangle) : Option (Nat × Triangle) := do
  let cycles ← add? longTop t.period 1
  if t.running then do
    let ticked ← t.timer.tick? cycles
    let position ← add? longTop t.step ticked.1
    let t := { t with timer := ticked.2, step := wrap position }
    return (t.level, t)
  else return (t.level, t)

/-- `slice`, checked. -/
def slice? (t : Triangle) (c : FrameClock) : Option (Array Nat × Triangle) := do
  let t ← t.clock? c
  takeSamples? sample? t #[] sliceSamples

theorem clockLinear?_eq (t : Triangle) : t.clockLinear? = some t.clockLinear := by
  unfold clockLinear? clockLinear
  split
  · rfl
  · split
    · next some =>
      rw [sub?_eq some]
      rfl
    · next none =>
      have hzero : t.linear = 0 := Nat.eq_zero_of_not_pos none
      rw [hzero]
      rfl

theorem clock?_eq (t : Triangle) (c : FrameClock) : t.clock? c = some (t.clock c) := by
  have hhalf (t : Triangle) :
      (do let length ← if c.half then t.length.clock? t.control else some t.length
          return { t with length } : Option Triangle) =
        some (if c.half then { t with length := t.length.clock t.control } else t) := by
    split
    · rw [LengthCounter.clock?_eq]
      rfl
    · rfl
  unfold clock? clock
  cases c.quarter with
  | true =>
    rw [if_pos rfl, if_pos rfl, clockLinear?_eq]
    exact hhalf t.clockLinear
  | false => exact hhalf t

variable {t : Triangle}

theorem sample?_eq (h : t.Bounded) : t.sample? = some t.sample := by
  have hstep : t.period + 1 ≤ longestStep := by
    have hperiod := h.period
    unfold longestStep
    omega
  have hcycles : t.period + 1 ≤ longTop := Nat.le_trans hstep (by decide)
  have htick := SampleTimer.tick?_eq h.timer hstep
  have hsteps := SampleTimer.steps_le h.timer (t.period + 1)
  unfold sample? sample
  generalize t.timer.tick (t.period + 1) = ticked at htick hsteps ⊢
  have hposition : t.step.val + ticked.1 ≤ longTop := by
    have hlt := t.step.isLt
    exact Nat.le_trans (Nat.add_le_add (Nat.le_of_lt hlt) hsteps) (by decide)
  refine (bind_some (add?_eq hcycles)).trans ?_
  split
  · refine (bind_some htick).trans ?_
    exact bind_some (add?_eq hposition)
  · rfl

theorem slice?_eq (h : t.Bounded) (c : FrameClock) : t.slice? c = some (t.slice c) := by
  have step : ∀ t : Triangle, t.Bounded → t.sample? = some t.sample ∧ t.sample.2.Bounded :=
    fun t h => ⟨sample?_eq h, h.sample.2⟩
  rw [slice_eq]
  unfold slice?
  refine (bind_some (clock?_eq t c)).trans ?_
  exact takeSamples?_eq step (h.clock c) #[] sliceSamples

end Triangle

namespace Noise

/-- `clock`, checked. -/
def clock? (n : Noise) (c : FrameClock) : Option Noise := do
  let envelope ← if c.quarter then n.envelope.clock? else some n.envelope
  let length ← if c.half then n.length.clock? envelope.looping else some n.length
  return { n with envelope, length }

/-- `sample`, checked. -/
def sample? (n : Noise) : Option (Nat × Noise) := do
  let ticked ← n.timer.tick? (periods.get n.periodIndex)
  let n := { n with timer := ticked.2, register := shiftedBy n.short n.register ticked.1 }
  return (n.level, n)

/-- `slice`, checked. -/
def slice? (n : Noise) (c : FrameClock) : Option (Array Nat × Noise) := do
  let n ← n.clock? c
  takeSamples? sample? n #[] sliceSamples

theorem clock?_eq (n : Noise) (c : FrameClock) : n.clock? c = some (n.clock c) := by
  have hhalf (n : Noise) :
      (do let length ← if c.half then n.length.clock? n.envelope.looping else some n.length
          return { n with length } : Option Noise) =
        some (if c.half then { n with length := n.length.clock n.envelope.looping } else n) := by
    split
    · rw [LengthCounter.clock?_eq]
      rfl
    · rfl
  unfold clock? clock
  cases c.quarter with
  | true =>
    rw [if_pos rfl, if_pos rfl, Envelope.clock?_eq]
    exact hhalf { n with envelope := n.envelope.clock }
  | false => exact hhalf n

variable {n : Noise}

theorem sample?_eq (h : n.Bounded) : n.sample? = some n.sample := by
  have htick := SampleTimer.tick?_eq h.timer (periods_le n.periodIndex)
  unfold sample? sample
  generalize n.timer.tick (periods.get n.periodIndex) = ticked at htick ⊢
  exact bind_some htick

theorem slice?_eq (h : n.Bounded) (c : FrameClock) : n.slice? c = some (n.slice c) := by
  have step : ∀ n : Noise, n.Bounded → n.sample? = some n.sample ∧ n.sample.2.Bounded :=
    fun n h => ⟨sample?_eq h, h.sample.2⟩
  rw [slice_eq]
  unfold slice?
  refine (bind_some (clock?_eq n c)).trans ?_
  exact takeSamples?_eq step (h.clock c) #[] sliceSamples

end Noise

/-! ## The delta modulation channel -/

namespace Dmc

/-- `writeAddress`, checked. -/
def writeAddress? (d : Dmc) (value : UInt8) : Option Dmc := do
  let offset ← mul? wordTop value.toNat 64
  let address ← add? wordTop 0xC000 offset
  return { d with sampleAddress := UInt16.ofNat address }

/-- `writeLength`, checked. -/
def writeLength? (d : Dmc) (value : UInt8) : Option Dmc := do
  let length ← mul? wordTop value.toNat 16
  let sampleLength ← add? wordTop length 1
  return { d with sampleLength }

/-- `following`, checked. -/
def following? (addr : UInt16) : Option UInt16 :=
  if addr = 0xFFFF then some 0x8000
  else do
    let next ← add? wordTop addr.toNat 1
    return UInt16.ofNat next

/-- `accept`, checked. -/
def accept? (d : Dmc) (value : UInt8) : Option Dmc := do
  let address ← following? d.address
  let remaining ← sub? d.remaining 1
  let d := { d with bitsLeft := 8, shift := value, silence := false, address, remaining }
  if d.remaining = 0 then
    return if d.looping then d.restart else { d with irq := d.irq || d.irqEnabled }
  else return d

/-- `ready`, checked. -/
def ready? (ask : Reader) (d : Dmc) (fetched : Array UInt16) : Option (Array UInt16 × Dmc) :=
  if d.bitsLeft = 0 then
    if d.active then do
      let next ← d.accept? (ask fetched d.address)
      return (fetched.push d.address, next)
    else some (fetched, { d with bitsLeft := 8, silence := true })
  else some (fetched, d)

/-- The level after the next bit, checked. -/
def moved? (d : Dmc) : Option Nat :=
  if d.silence then some d.level
  else if bit d.shift 0 then (if d.level ≤ 125 then add? byteTop d.level 2 else some d.level)
  else (if 2 ≤ d.level then sub? d.level 2 else some d.level)

/-- `playBit`, checked. -/
def playBit? (d : Dmc) : Option Dmc := do
  let level ← d.moved?
  let bitsLeft ← sub? d.bitsLeft 1
  return { d with level, shift := d.shift >>> 1, bitsLeft }

/-- `playBitsFrom`, checked. -/
def playBits? (ask : Reader) (d : Dmc) (fetched : Array UInt16) :
    (count : Nat) → Option (Array UInt16 × Dmc)
  | 0 => some (fetched, d)
  | count + 1 => do
    let next ← d.ready? ask fetched
    let played ← next.2.playBit?
    playBits? ask played next.1 count

/-- `takeLevelsWith`, checked. -/
def takeLevels? (tick? : SampleTimer → Nat → Option (Nat × SampleTimer))
    (play? : Dmc → Array UInt16 → Nat → Option (Array UInt16 × Dmc)) (d : Dmc) (out : Played) :
    (count : Nat) → Option (Played × Dmc)
  | 0 => some (out, d)
  | count + 1 => do
    let ticked ← tick? d.timer (rates.get d.rateIndex)
    let played ← play? { d with timer := ticked.2 } out.fetched ticked.1
    takeLevels? tick? play? played.2
      { levels := out.levels.push played.2.level, fetched := played.1 } count

/-- `sliceFrom`, checked. -/
def slice? (d : Dmc) (ask : Reader) : Option (Played × Dmc) :=
  takeLevels? SampleTimer.tick? (playBits? ask) d {} sliceSamples

theorem writeAddress?_eq (d : Dmc) (value : UInt8) :
    d.writeAddress? value = some (d.writeAddress value) := by
  have hvalue := value.toNat_lt
  have hoffset : value.toNat * 64 ≤ wordTop := by
    unfold wordTop
    omega
  have haddress : 0xC000 + value.toNat * 64 ≤ wordTop := by
    unfold wordTop
    omega
  have hword : UInt16.ofNat (0xC000 + value.toNat * 64) = 0xC000 + value.toUInt16 * 64 := by
    apply UInt16.toNat_inj.mp
    simp
  unfold writeAddress? writeAddress
  rw [mul?_eq hoffset, ← hword]
  exact bind_some (add?_eq haddress)

theorem writeLength?_eq (d : Dmc) (value : UInt8) :
    d.writeLength? value = some (d.writeLength value) := by
  have hvalue := value.toNat_lt
  have hlength : value.toNat * 16 + 1 ≤ wordTop := by
    unfold wordTop
    omega
  unfold writeLength? writeLength
  rw [mul?_eq (Nat.le_of_succ_le hlength)]
  exact bind_some (add?_eq hlength)

theorem following?_eq (addr : UInt16) : following? addr = some (following addr) := by
  unfold following? following
  split
  · rfl
  · next inside =>
    have hlt := addr.toNat_lt
    have hne : addr.toNat ≠ 0xFFFF := fun top => inside (UInt16.toNat_inj.mp top)
    have hnext : addr.toNat + 1 ≤ wordTop := by
      unfold wordTop
      omega
    have hword : UInt16.ofNat (addr.toNat + 1) = addr + 1 := by
      apply UInt16.toNat_inj.mp
      simp
    rw [add?_eq hnext, ← hword]
    rfl

theorem accept?_eq {d : Dmc} (h : 0 < d.remaining) (value : UInt8) :
    d.accept? value = some (d.accept value) := by
  unfold accept? accept
  rw [following?_eq, sub?_eq (Nat.succ_le_of_lt h)]
  simp only [Option.bind_eq_bind, Option.bind_some]
  split <;> rfl

theorem ready?_eq (ask : Reader) (d : Dmc) (fetched : Array UInt16) :
    d.ready? ask fetched = some (d.ready ask fetched) := by
  unfold ready? ready
  split
  · split
    · next some =>
      rw [accept?_eq (of_decide_eq_true some)]
      rfl
    · rfl
  · rfl

variable {d : Dmc}

theorem moved?_eq (d : Dmc) : d.moved? = some d.playBit.level := by
  unfold moved? playBit
  dsimp only
  split
  · rfl
  · split
    · split
      · next low =>
        refine add?_eq ?_
        unfold byteTop
        omega
      · rfl
    · split
      · next high => exact sub?_eq high
      · rfl

theorem playBit?_eq (h : 0 < d.bitsLeft) : d.playBit? = some d.playBit := by
  unfold playBit?
  refine (bind_some (moved?_eq d)).trans ?_
  refine (bind_some (sub?_eq (Nat.succ_le_of_lt h))).trans ?_
  rfl

theorem playBits?_eq (h : d.Bounded) (ask : Reader) (fetched : Array UInt16) (count : Nat) :
    playBits? ask d fetched count = some (playBitsFrom ask d fetched count) := by
  induction count generalizing d fetched with
  | zero => rfl
  | succ count ih =>
    obtain ⟨hready, hbits⟩ := h.ready ask fetched
    unfold playBits? playBitsFrom
    refine (bind_some (ready?_eq ask d fetched)).trans ?_
    refine (bind_some (playBit?_eq hbits)).trans ?_
    exact ih hready.playBit _

theorem takeLevels?_eq (h : d.Bounded)
    {tick? : SampleTimer → Nat → Option (Nat × SampleTimer)}
    {tick : SampleTimer → Nat → Nat × SampleTimer}
    (htick? : ∀ timer period, timer.Bounded → period ≤ longestStep →
      tick? timer period = some (tick timer period))
    (htick : ∀ timer period, period ≤ longestStep → (tick timer period).2.Bounded)
    (ask : Reader) (out : Played) (count : Nat) :
    takeLevels? tick? (playBits? ask) d out count =
      some (takeLevelsWith tick (playBitsFrom ask) d out count) := by
  induction count generalizing d out with
  | zero => rfl
  | succ count ih =>
    have hsome := htick? d.timer _ h.timer (rates_le d.rateIndex)
    have htimer := htick d.timer _ (rates_le d.rateIndex)
    unfold takeLevels? takeLevelsWith
    dsimp only
    generalize tick d.timer (rates.get d.rateIndex) = ticked at hsome htimer ⊢
    have hticked : Bounded { d with timer := ticked.2 } :=
      ⟨h.level, h.sampleLength, h.remaining, h.bitsLeft, htimer⟩
    refine (bind_some hsome).trans ?_
    refine (bind_some (playBits?_eq hticked ask out.fetched ticked.1)).trans ?_
    exact ih (hticked.playBitsFrom ask out.fetched ticked.1) _

theorem slice?_eq (h : d.Bounded) (ask : Reader) : d.slice? ask = some (d.sliceFrom ask) := by
  unfold slice? sliceFrom
  exact takeLevels?_eq h (fun timer period htimer => timer.tick?_eq htimer)
    (fun timer _ => timer.bounded_tick) ask {} sliceSamples

end Dmc

/-! ## The sequencer and the mixer -/

/-- `next`, checked. -/
def Sequencer.next? (s : Sequencer) : Option (FrameClock × Sequencer) := do
  let following ← add? byteTop s.step 1
  let result ← divMod? following s.mode.steps
  match s.mode with
  | .fourStep =>
    return ({ quarter := true, half := s.step % 2 == 1 },
      { s with step := result.2, irq := s.irq || (result.2 == 0 && !s.inhibit) })
  | .fiveStep =>
    return ({ quarter := s.step != 3, half := s.step == 1 || s.step == 4 },
      { s with step := result.2 })

theorem Sequencer.next?_eq {s : Sequencer} (h : s.Bounded) : s.next? = some s.next := by
  have hfollowing : s.step + 1 ≤ byteTop := by
    have hsteps : s.mode.steps ≤ 5 := by cases s.mode <;> decide
    have hstep : s.step < s.mode.steps := h
    unfold byteTop
    omega
  have hpos : 0 < s.mode.steps := Nat.zero_lt_of_lt h
  unfold next? next
  refine (bind_some (add?_eq hfollowing)).trans ?_
  refine (bind_some (divMod?_eq hpos)).trans ?_
  cases s.mode <;> rfl

namespace Mixer

/-- `mix`, checked: the levels of the pulse channels are added in eight bits, and both indices are
    taken as they are. -/
def mix? (pulse1 pulse2 triangle noise dmc : Nat) : Option UInt8 := do
  let pulseIndex ← add? byteTop pulse1 pulse2
  let pulse ← pulseTable[pulseIndex]?
  let threefold ← mul? longTop 3 triangle
  let twofold ← mul? longTop 2 noise
  let sum ← add? longTop threefold twofold
  let otherIndex ← add? longTop sum dmc
  let other ← otherTable[otherIndex]?
  return ((pulse + other) * 255).round.toUInt8

/-- An entry that is looked up with an index that needs no folding. -/
theorem getElem?_eq_get_min {A : Type} {size : Nat} (table : Vector A size) {index top : Nat}
    (htop : min index top < size) (h : index ≤ top) :
    table[index]? = some (table.get ⟨min index top, htop⟩) := by
  have hindex : min index top = index := Nat.min_eq_left h
  show table[index]? = some table[min index top]
  simp only [hindex]
  exact Vector.getElem?_eq_getElem (hindex ▸ htop)

variable {pulse1 pulse2 triangle noise dmc : Nat}

theorem pulseIndex_le (h1 : pulse1 ≤ 15) (h2 : pulse2 ≤ 15) : pulseIndex pulse1 pulse2 ≤ 30 :=
  Nat.add_le_add h1 h2

theorem otherIndex_le (ht : triangle ≤ 15) (hn : noise ≤ 15) (hd : dmc ≤ 127) :
    otherIndex triangle noise dmc ≤ 202 := by
  unfold otherIndex
  omega

theorem mix?_eq (h1 : pulse1 ≤ 15) (h2 : pulse2 ≤ 15) (ht : triangle ≤ 15) (hn : noise ≤ 15)
    (hd : dmc ≤ 127) :
    mix? pulse1 pulse2 triangle noise dmc = some (mix pulse1 pulse2 triangle noise dmc) := by
  have hsum : pulse1 + pulse2 ≤ byteTop := Nat.le_trans (pulseIndex_le h1 h2) (by decide)
  have hweighted : 3 * triangle + 2 * noise + dmc ≤ longTop :=
    Nat.le_trans (otherIndex_le ht hn hd) (by decide)
  have hpulse := getElem?_eq_get_min pulseTable
    (show min (pulseIndex pulse1 pulse2) 30 < 31 by omega) (pulseIndex_le h1 h2)
  have hother := getElem?_eq_get_min otherTable
    (show min (otherIndex triangle noise dmc) 202 < 203 by omega) (otherIndex_le ht hn hd)
  unfold mix? mix
  refine (bind_some (add?_eq hsum)).trans ?_
  refine (bind_some hpulse).trans ?_
  refine (bind_some (mul?_eq (by omega))).trans ?_
  refine (bind_some (mul?_eq (by omega))).trans ?_
  refine (bind_some (add?_eq (by omega))).trans ?_
  refine (bind_some (add?_eq hweighted)).trans ?_
  exact bind_some hother

end Mixer

/-! ## The whole chip -/

namespace Apu

/-- `writeRegister`, checked. -/
def writeRegister? (apu : Apu) (register : ApuRegister) (value : UInt8) : Option Apu :=
  match register with
  | .dmcAddress => do
    let dmc ← apu.dmc.writeAddress? value
    return { apu with dmc }
  | .dmcLength => do
    let dmc ← apu.dmc.writeLength? value
    return { apu with dmc }
  -- the others only take bits apart and put them together
  | register => some (apu.writeRegister register value)

/-- `write`, checked. -/
def write? (apu : Apu) (addr : UInt16) (value : UInt8) : Option Apu :=
  match ApuRegister.ofAddress? addr with
  | some register => apu.writeRegister? register value
  | none => some apu

/-- `mixLevels`, checked. -/
def mixLevels? (pulse1 pulse2 triangle noise dmc : Array Nat) : Option Bytes := do
  let samples ← (List.range sliceSamples).mapM fun i => do
    let pulse1 ← pulse1[i]?
    let pulse2 ← pulse2[i]?
    let triangle ← triangle[i]?
    let noise ← noise[i]?
    let dmc ← dmc[i]?
    Mixer.mix? pulse1 pulse2 triangle noise dmc
  return samples.toArray

/-- `sliceFrom`, checked. -/
def slice? (apu : Apu) (ask : Reader) : Option (Slice × Apu) := do
  let next ← apu.sequencer.next?
  let pulse1 ← apu.pulse1.slice? next.1
  let pulse2 ← apu.pulse2.slice? next.1
  let triangle ← apu.triangle.slice? next.1
  let noise ← apu.noise.slice? next.1
  let dmc ← apu.dmc.slice? ask
  let samples ← mixLevels? pulse1.1 pulse2.1 triangle.1 noise.1 dmc.1.levels
  return (⟨samples, dmc.1.fetched⟩, ⟨pulse1.2, pulse2.2, triangle.2, noise.2, dmc.2, next.2⟩)

theorem writeRegister?_eq (apu : Apu) (register : ApuRegister) (value : UInt8) :
    apu.writeRegister? register value = some (apu.writeRegister register value) := by
  cases register
  case dmcAddress => exact bind_some (Dmc.writeAddress?_eq apu.dmc value)
  case dmcLength => exact bind_some (Dmc.writeLength?_eq apu.dmc value)
  all_goals rfl

theorem write?_eq (apu : Apu) (addr : UInt16) (value : UInt8) :
    apu.write? addr value = some (apu.write addr value) := by
  unfold write? write
  cases ApuRegister.ofAddress? addr with
  | some register => exact writeRegister?_eq apu register value
  | none => rfl

theorem mixLevels?_eq {pulse1 pulse2 triangle noise dmc : Array Nat}
    (hpulse1 : pulse1.size = sliceSamples ∧ ∀ level ∈ pulse1, level ≤ 15)
    (hpulse2 : pulse2.size = sliceSamples ∧ ∀ level ∈ pulse2, level ≤ 15)
    (htriangle : triangle.size = sliceSamples ∧ ∀ level ∈ triangle, level ≤ 15)
    (hnoise : noise.size = sliceSamples ∧ ∀ level ∈ noise, level ≤ 15)
    (hdmc : dmc.size = sliceSamples ∧ ∀ level ∈ dmc, level ≤ 127) :
    mixLevels? pulse1 pulse2 triangle noise dmc =
      some (mixLevels pulse1 pulse2 triangle noise dmc) := by
  have entry : ∀ {levels : Array Nat} {top : Nat},
      levels.size = sliceSamples ∧ (∀ level ∈ levels, level ≤ top) →
      ∀ {i : Nat}, i < sliceSamples →
        levels[i]? = some (levels.getD i 0) ∧ levels.getD i 0 ≤ top := by
    intro levels top h i hi
    have hsize : i < levels.size := by omega
    have hentry : levels.getD i 0 = levels[i] := by
      simp [Array.getD_eq_getD_getElem?, hsize]
    rw [hentry]
    exact ⟨Array.getElem?_eq_getElem hsize, h.2 _ (Array.getElem_mem hsize)⟩
  have hmix : (List.range sliceSamples).mapM (fun i => do
      let pulse1 ← pulse1[i]?
      let pulse2 ← pulse2[i]?
      let triangle ← triangle[i]?
      let noise ← noise[i]?
      let dmc ← dmc[i]?
      Mixer.mix? pulse1 pulse2 triangle noise dmc) =
        some ((List.range sliceSamples).map fun i =>
          Mixer.mix (pulse1.getD i 0) (pulse2.getD i 0) (triangle.getD i 0) (noise.getD i 0)
            (dmc.getD i 0)) := by
    refine mapM_eq_map fun i hmem => ?_
    have hi : i < sliceSamples := List.mem_range.mp hmem
    obtain ⟨hp1, hp1le⟩ := entry hpulse1 hi
    obtain ⟨hp2, hp2le⟩ := entry hpulse2 hi
    obtain ⟨ht, htle⟩ := entry htriangle hi
    obtain ⟨hn, hnle⟩ := entry hnoise hi
    obtain ⟨hd, hdle⟩ := entry hdmc hi
    refine (bind_some hp1).trans ?_
    refine (bind_some hp2).trans ?_
    refine (bind_some ht).trans ?_
    refine (bind_some hn).trans ?_
    refine (bind_some hd).trans ?_
    exact Mixer.mix?_eq hp1le hp2le htle hnle hdle
  unfold mixLevels? mixLevels
  refine (bind_some hmix).trans ?_
  apply congrArg some
  apply Array.ext'
  simp

theorem slice?_eq {apu : Apu} (h : apu.Bounded) (ask : Reader) :
    apu.slice? ask = some (apu.sliceFrom ask) := by
  have hnext := Sequencer.next?_eq h.sequencer
  unfold slice? sliceFrom
  generalize apu.sequencer.next = next at hnext ⊢
  have hpulse1 := h.pulse1.slice next.1
  have hpulse2 := h.pulse2.slice next.1
  have htriangle := h.triangle.slice next.1
  have hnoise := h.noise.slice next.1
  have hdmc := h.dmc.sliceFrom ask
  refine (bind_some hnext).trans ?_
  refine (bind_some (Pulse.slice?_eq h.pulse1 next.1)).trans ?_
  refine (bind_some (Pulse.slice?_eq h.pulse2 next.1)).trans ?_
  refine (bind_some (Triangle.slice?_eq h.triangle next.1)).trans ?_
  refine (bind_some (Noise.slice?_eq h.noise next.1)).trans ?_
  refine (bind_some (Dmc.slice?_eq h.dmc ask)).trans ?_
  exact bind_some (mixLevels?_eq ⟨Pulse.size_slice _ _, hpulse1.1⟩ ⟨Pulse.size_slice _ _, hpulse2.1⟩
    ⟨Triangle.size_slice _ _, htriangle.1⟩ ⟨Noise.size_slice _ _, hnoise.1⟩
    ⟨Dmc.size_sliceFrom _ _, hdmc.1⟩)

end Apu
end Nes
