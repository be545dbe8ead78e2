/-
  What holds of the sound chip after any calls.

  `Call` is everything that can be done to the chip: write a byte to an address, read the status,
  reset it, and take a slice of sound with any reader. `after?` makes a list of calls in checked
  arithmetic. One call keeps the bounds, and checked it gives what it gives plainly (`run?_eq`); by
  induction so does a list of calls (`after?_eq`).

  `Tone` is what decides how long a channel sounds: its switch, its length, and whether the length
  is halted. A slice changes it by the clock that the channel gets and by nothing else
  (`tone_sliceFrom`), so where no length was none is after a slice (`runs_sliceFrom`).

  The calls that a length is owed to are found by induction from the last call backwards: where a
  channel has a length although it was off some time before, the length was loaded since, and before
  that the channel was switched on (`reloaded_of_length`).
-/
import Mathlib.Data.List.Induction
import Nes.Proofs.Apu.Checked

namespace Nes

/-! ## Channels with a length counter -/

/-- What no sample changes is not changed by a row of samples. -/
theorem takeSamples_keeps {S A : Type} (sample : S → Nat × S) (part : S → A)
    (step : ∀ channel, part (sample channel).2 = part channel) (channel : S) (out : Array Nat)
    (count : Nat) : part (takeSamples sample channel out count).2 = part channel := by
  induction count generalizing channel out with
  | zero => rfl
  | succ count ih => exact (ih (sample channel).2 _).trans (step channel)

/-- Whether a channel is on, and its length. -/
structure Gate where
  enabled : Bool
  length : LengthCounter

namespace Gate

/-- A write of the length. -/
def load (gate : Gate) (value : UInt8) : Gate :=
  { gate with length := gate.length.load value gate.enabled }

/-- The switch of the channel. -/
def set (gate : Gate) (enabled : Bool) : Gate := ⟨enabled, gate.length.gate enabled⟩

/-- A half-frame clock of the length. -/
def clock (gate : Gate) (halt : Bool) : Gate := { gate with length := gate.length.clock halt }

/-- What a slice of sound does: the channel stays on or off, and where no length was none is. -/
def Runs (gate later : Gate) : Prop :=
  later.enabled = gate.enabled ∧ (gate.length.value = 0 → later.length.value = 0)

end Gate

/-- What decides how long a channel sounds. -/
structure Tone where
  gate : Gate
  halted : Bool

/-- The clocks at the start of a slice. -/
def Tone.clock (tone : Tone) (c : FrameClock) : Tone :=
  if c.half then { tone with gate := tone.gate.clock tone.halted } else tone

theorem Tone.halted_clock (tone : Tone) (c : FrameClock) : (tone.clock c).halted = tone.halted := by
  unfold Tone.clock
  split <;> rfl

theorem Tone.length_clock {tone : Tone} (h : tone.halted = false) (c : FrameClock) :
    (tone.clock c).gate.length.value = tone.gate.length.value - c.half.toNat := by
  unfold Tone.clock
  split
  · next hhalf =>
    rw [h, hhalf]
    rfl
  · next hhalf =>
    rw [Bool.eq_false_iff.mpr hhalf]
    rfl

theorem Tone.runs_clock (tone : Tone) (c : FrameClock) : tone.gate.Runs (tone.clock c).gate := by
  unfold Tone.clock
  split
  · exact ⟨rfl, fun none => LengthCounter.clock_zero none _⟩
  · exact ⟨rfl, id⟩

namespace Pulse

def gate (p : Pulse) : Gate := ⟨p.enabled, p.length⟩

def tone (p : Pulse) : Tone := ⟨p.gate, p.envelope.looping⟩

theorem tone_sample (p : Pulse) : p.sample.2.tone = p.tone := by
  have kept (ticked : Nat × SampleTimer) :
      tone { p with timer := ticked.2, step := wrap (p.step + ticked.1) } = p.tone := rfl
  exact kept (p.timer.tick (2 * (p.period + 1)))

theorem tone_clock (p : Pulse) (c : FrameClock) : (p.clock c).tone = p.tone.clock c := by
  have hlooping := p.envelope.settings_clock.1
  obtain ⟨quarter, half⟩ := c
  cases quarter with
  | false => cases half <;> rfl
  | true =>
    cases half with
    | false =>
      show Tone.mk p.gate p.envelope.clock.looping = p.tone
      rw [hlooping]
      rfl
    | true =>
      show Tone.mk (p.gate.clock p.envelope.clock.looping) p.envelope.clock.looping = _
      rw [hlooping]
      rfl

theorem tone_slice (p : Pulse) (c : FrameClock) : (p.slice c).2.tone = p.tone.clock c := by
  rw [slice_eq, takeSamples_keeps sample tone tone_sample (p.clock c) #[] sliceSamples]
  exact tone_clock p c

end Pulse

namespace Triangle

def gate (t : Triangle) : Gate := ⟨t.enabled, t.length⟩

def tone (t : Triangle) : Tone := ⟨t.gate, t.control⟩

theorem tone_sample (t : Triangle) : t.sample.2.tone = t.tone := by
  have kept (ticked : Nat × SampleTimer) :
      tone { t with timer := ticked.2, step := wrap (t.step + ticked.1) } = t.tone := rfl
  unfold sample
  split
  · exact kept (t.timer.tick (t.period + 1))
  · rfl

theorem tone_clock (t : Triangle) (c : FrameClock) : (t.clock c).tone = t.tone.clock c := by
  obtain ⟨quarter, half⟩ := c
  cases quarter <;> cases half <;> rfl

theorem tone_slice (t : Triangle) (c : FrameClock) : (t.slice c).2.tone = t.tone.clock c := by
  rw [slice_eq, takeSamples_keeps sample tone tone_sample (t.clock c) #[] sliceSamples]
  exact tone_clock t c

end Triangle

namespace Noise

def gate (n : Noise) : Gate := ⟨n.enabled, n.length⟩

def tone (n : Noise) : Tone := ⟨n.gate, n.envelope.looping⟩

theorem tone_sample (n : Noise) : n.sample.2.tone = n.tone := by
  have kept (ticked : Nat × SampleTimer) :
      tone { n with
        timer := ticked.2, register := shiftedBy n.short n.register ticked.1 } = n.tone := rfl
  exact kept (n.timer.tick (periods.get n.periodIndex))

theorem tone_clock (n : Noise) (c : FrameClock) : (n.clock c).tone = n.tone.clock c := by
  have hlooping := n.envelope.settings_clock.1
  obtain ⟨quarter, half⟩ := c
  cases quarter with
  | false => cases half <;> rfl
  | true =>
    cases half with
    | false =>
      show Tone.mk n.gate n.envelope.clock.looping = n.tone
      rw [hlooping]
      rfl
    | true =>
      show Tone.mk (n.gate.clock n.envelope.clock.looping) n.envelope.clock.looping = _
      rw [hlooping]
      rfl

theorem tone_slice (n : Noise) (c : FrameClock) : (n.slice c).2.tone = n.tone.clock c := by
  rw [slice_eq, takeSamples_keeps sample tone tone_sample (n.clock c) #[] sliceSamples]
  exact tone_clock n c

end Noise

/-- A channel with a length counter. -/
inductive Voice
  | pulse1
  | pulse2
  | triangle
  | noise
deriving DecidableEq

namespace Voice

/-- The bit of $4015 that switches the channel on. -/
def flag : Voice → Nat
  | pulse1 => 0
  | pulse2 => 1
  | triangle => 2
  | noise => 3

/-- The register whose write loads the length. -/
def lengthRegister : Voice → ApuRegister
  | pulse1 => .pulse1TimerHigh
  | pulse2 => .pulse2TimerHigh
  | triangle => .triangleTimerHigh
  | noise => .noiseLength

/-- The address of that register. -/
def lengthAddress : Voice → UInt16
  | pulse1 => 0x4003
  | pulse2 => 0x4007
  | triangle => 0x400B
  | noise => 0x400F

end Voice

namespace ApuRegister

theorem ofAddress?_eq_status {addr : UInt16} : ofAddress? addr = some status ↔ addr = 0x4015 := by
  refine ⟨fun h => ?_, fun h => h ▸ rfl⟩
  unfold ofAddress? at h
  split at h <;> first | contradiction | skip
  next haddr => exact UInt16.toNat_inj.mp haddr

theorem ofAddress?_eq_lengthRegister {addr : UInt16} {voice : Voice} :
    ofAddress? addr = some voice.lengthRegister ↔ addr = voice.lengthAddress := by
  refine ⟨fun h => ?_, fun h => ?_⟩
  · unfold ofAddress? at h
    cases voice
    all_goals
      split at h <;> first | contradiction | skip
      next haddr => exact UInt16.toNat_inj.mp haddr
  · subst h
    cases voice <;> rfl

end ApuRegister

namespace Apu

/-- The switch and the length of a channel. -/
def gate (apu : Apu) : Voice → Gate
  | .pulse1 => apu.pulse1.gate
  | .pulse2 => apu.pulse2.gate
  | .triangle => apu.triangle.gate
  | .noise => apu.noise.gate

def tone (apu : Apu) : Voice → Tone
  | .pulse1 => apu.pulse1.tone
  | .pulse2 => apu.pulse2.tone
  | .triangle => apu.triangle.tone
  | .noise => apu.noise.tone

theorem tone_gate (apu : Apu) (voice : Voice) : (apu.tone voice).gate = apu.gate voice := by
  cases voice <;> rfl

variable {apu : Apu} {voice : Voice}

theorem gate_writeRegister (apu : Apu) (register : ApuRegister) (value : UInt8) (voice : Voice) :
    (apu.writeRegister register value).gate voice =
      if register = .status then (apu.gate voice).set (bit value voice.flag)
      else if register = voice.lengthRegister then (apu.gate voice).load value
      else apu.gate voice := by
  cases register <;> cases voice <;> rfl

theorem gate_write (apu : Apu) (addr : UInt16) (value : UInt8) (voice : Voice) :
    (apu.write addr value).gate voice =
      if addr = 0x4015 then (apu.gate voice).set (bit value voice.flag)
      else if addr = voice.lengthAddress then (apu.gate voice).load value
      else apu.gate voice := by
  simp only [← ApuRegister.ofAddress?_eq_status, ← ApuRegister.ofAddress?_eq_lengthRegister]
  unfold Apu.write
  cases ApuRegister.ofAddress? addr with
  | none => rfl
  | some register =>
    simp only [Option.some.injEq]
    exact gate_writeRegister apu register value voice

theorem gate_reset (apu : Apu) (kind : ResetKind) (voice : Voice) :
    (apu.reset kind).gate voice = ⟨false, {}⟩ := by
  cases kind <;> cases voice <;> rfl

theorem tone_joined {apu : Apu} {c : FrameClock} {pulse1 pulse2 : Array Nat × Pulse}
    {triangle : Array Nat × Triangle} {noise : Array Nat × Noise}
    (hpulse1 : pulse1.2.tone = apu.pulse1.tone.clock c)
    (hpulse2 : pulse2.2.tone = apu.pulse2.tone.clock c)
    (htriangle : triangle.2.tone = apu.triangle.tone.clock c)
    (hnoise : noise.2.tone = apu.noise.tone.clock c) (dmc : Dmc.Played × Dmc)
    (sequencer : Sequencer) (voice : Voice) :
    (joined pulse1 pulse2 triangle noise dmc sequencer).2.tone voice =
      (apu.tone voice).clock c := by
  cases voice with
  | pulse1 => exact hpulse1
  | pulse2 => exact hpulse2
  | triangle => exact htriangle
  | noise => exact hnoise

/-- A slice gives a channel the clocks of the sequence, and does nothing else to its tone. -/
theorem tone_sliceFrom (apu : Apu) (ask : Reader) (voice : Voice) :
    (apu.sliceFrom ask).2.tone voice = (apu.tone voice).clock apu.sequencer.next.1 :=
  tone_joined (apu.pulse1.tone_slice _) (apu.pulse2.tone_slice _) (apu.triangle.tone_slice _)
    (apu.noise.tone_slice _) (apu.dmc.sliceFrom ask) apu.sequencer.next.2 voice

theorem runs_sliceFrom (apu : Apu) (ask : Reader) (voice : Voice) :
    (apu.gate voice).Runs ((apu.sliceFrom ask).2.gate voice) := by
  rw [← tone_gate, ← tone_gate, tone_sliceFrom]
  exact Tone.runs_clock _ _

/-! ## The status byte -/

/-- The status byte for what it reports, lowest bit first; bit 5 is always clear. -/
def report (pulse1 pulse2 triangle noise dmc frameIrq dmcIrq : Bool) : UInt8 :=
  (if pulse1 then 0x01 else 0) ||| (if pulse2 then 0x02 else 0) |||
    (if triangle then 0x04 else 0) ||| (if noise then 0x08 else 0) ||| (if dmc then 0x10 else 0) |||
    (if frameIrq then 0x40 else 0) ||| (if dmcIrq then 0x80 else 0)

theorem bits_report : ∀ pulse1 pulse2 triangle noise dmc frameIrq dmcIrq : Bool,
    let byte := report pulse1 pulse2 triangle noise dmc frameIrq dmcIrq
    bit byte 0 = pulse1 ∧ bit byte 1 = pulse2 ∧ bit byte 2 = triangle ∧ bit byte 3 = noise ∧
      bit byte 4 = dmc ∧ bit byte 6 = frameIrq ∧ bit byte 7 = dmcIrq := by
  decide +kernel

theorem readStatus_eq (apu : Apu) :
    apu.readStatus.1 = report apu.pulse1.length.active apu.pulse2.length.active
      apu.triangle.length.active apu.noise.length.active apu.dmc.active apu.sequencer.irq
      apu.dmc.irq := rfl

/-- A channel is reported while it has a length. -/
theorem bit_readStatus (apu : Apu) (voice : Voice) :
    bit apu.readStatus.1 voice.flag = (apu.gate voice).length.active := by
  obtain ⟨hpulse1, hpulse2, htriangle, hnoise, -⟩ := bits_report apu.pulse1.length.active
    apu.pulse2.length.active apu.triangle.length.active apu.noise.length.active apu.dmc.active
    apu.sequencer.irq apu.dmc.irq
  rw [readStatus_eq]
  cases voice with
  | pulse1 => exact hpulse1
  | pulse2 => exact hpulse2
  | triangle => exact htriangle
  | noise => exact hnoise

theorem bit_readStatus_dmc (apu : Apu) : bit apu.readStatus.1 4 = apu.dmc.active := by
  rw [readStatus_eq]
  exact (bits_report _ _ _ _ _ _ _).2.2.2.2.1

theorem bit_readStatus_frameIrq (apu : Apu) : bit apu.readStatus.1 6 = apu.sequencer.irq := by
  rw [readStatus_eq]
  exact (bits_report _ _ _ _ _ _ _).2.2.2.2.2.1

theorem bit_readStatus_dmcIrq (apu : Apu) : bit apu.readStatus.1 7 = apu.dmc.irq := by
  rw [readStatus_eq]
  exact (bits_report _ _ _ _ _ _ _).2.2.2.2.2.2

/-! ## Calls -/

/-- Something that is done to the chip. -/
inductive Call
  | write (addr : UInt16) (value : UInt8)
  | readStatus
  | reset (kind : ResetKind)
  /-- One step of the sequencer and one slice of sound. -/
  | slice (ask : Reader)

namespace Call

/-- The chip after a call. -/
def run (apu : Apu) : Call → Apu
  | write addr value => apu.write addr value
  | readStatus => apu.readStatus.2
  | reset kind => apu.reset kind
  | slice ask => (apu.sliceFrom ask).2

/-- `run`, checked. -/
def run? (apu : Apu) : Call → Option Apu
  | write addr value => apu.write? addr value
  | readStatus => some apu.readStatus.2
  | reset kind => some (apu.reset kind)
  | slice ask => do
    let result ← apu.slice? ask
    return result.2

/-- The call switches a channel on. -/
def SwitchesOn (voice : Voice) (call : Call) : Prop :=
  ∃ value, call = .write 0x4015 value ∧ bit value voice.flag = true

/-- The call switches a channel off. -/
def SwitchesOff (voice : Voice) (call : Call) : Prop :=
  (∃ value, call = .write 0x4015 value ∧ bit value voice.flag = false) ∨
    ∃ kind, call = .reset kind

/-- The call writes the length of a channel. -/
def Loads (voice : Voice) (call : Call) : Prop := ∃ value, call = .write voice.lengthAddress value

theorem run?_eq (h : apu.Bounded) (call : Call) : call.run? apu = some (call.run apu) := by
  cases call with
  | write addr value => exact write?_eq apu addr value
  | readStatus => rfl
  | reset kind => rfl
  | slice ask => exact Checked.bind_some (slice?_eq h ask)

theorem bounded_run (h : apu.Bounded) (call : Call) : (call.run apu).Bounded := by
  cases call with
  | write addr value => exact h.write addr value
  | readStatus => exact h.readStatus
  | reset kind => exact h.reset kind
  | slice ask => exact h.sliceFrom ask

theorem not_switchesOff_write {addr : UInt16} (h : addr ≠ 0x4015) (value : UInt8) :
    ¬(Call.write addr value).SwitchesOff voice := by
  rintro (⟨_, off, _⟩ | ⟨_, off⟩)
  · injection off with haddr
    exact h haddr
  · cases off

/-- Where a channel is on after a call, the call switches it on, or the channel was on and the call
    does not switch it off. -/
theorem switchesOn_or {call : Call} (h : ((call.run apu).gate voice).enabled = true) :
    call.SwitchesOn voice ∨ (apu.gate voice).enabled = true ∧ ¬call.SwitchesOff voice := by
  cases call with
  | write addr value =>
    unfold run at h
    rw [gate_write] at h
    split at h
    · next haddr =>
      subst haddr
      exact .inl ⟨value, rfl, h⟩
    · next haddr =>
      right
      split at h <;> exact ⟨h, not_switchesOff_write haddr value⟩
  | readStatus =>
    right
    refine ⟨h, ?_⟩
    rintro (⟨_, off, _⟩ | ⟨_, off⟩) <;> cases off
  | reset kind =>
    unfold run at h
    rw [gate_reset] at h
    cases h
  | slice ask =>
    right
    obtain ⟨hsame, _⟩ := runs_sliceFrom apu ask voice
    refine ⟨hsame.symm.trans h, ?_⟩
    rintro (⟨_, off, _⟩ | ⟨_, off⟩) <;> cases off

/-- Where a channel has a length after a call, the call loads it into a channel that is on, or the
    channel had one and the call does not switch it off. -/
theorem loads_or {call : Call} (h : ((call.run apu).gate voice).length.value ≠ 0) :
    call.Loads voice ∧ (apu.gate voice).enabled = true ∨
      (apu.gate voice).length.value ≠ 0 ∧ ¬call.SwitchesOff voice := by
  cases call with
  | write addr value =>
    unfold run at h
    rw [gate_write] at h
    split at h
    · next haddr =>
      subst haddr
      unfold Gate.set LengthCounter.gate at h
      dsimp only at h
      split at h
      · next on =>
        right
        refine ⟨h, ?_⟩
        rintro (⟨_, off, clear⟩ | ⟨_, off⟩)
        · injection off with _ hvalue
          subst hvalue
          rw [on] at clear
          cases clear
        · cases off
      · exact absurd rfl h
    · next haddr =>
      split at h
      · next hlength =>
        cases hon : (apu.gate voice).enabled with
        | true => exact .inl ⟨⟨value, hlength ▸ rfl⟩, rfl⟩
        | false =>
          unfold Gate.load LengthCounter.load at h
          rw [hon] at h
          exact .inr ⟨h, not_switchesOff_write haddr value⟩
      · exact .inr ⟨h, not_switchesOff_write haddr value⟩
  | readStatus =>
    right
    refine ⟨h, ?_⟩
    rintro (⟨_, off, _⟩ | ⟨_, off⟩) <;> cases off
  | reset kind =>
    unfold run at h
    rw [gate_reset] at h
    exact absurd rfl h
  | slice ask =>
    right
    obtain ⟨_, hnone⟩ := runs_sliceFrom apu ask voice
    refine ⟨fun none => h (hnone none), ?_⟩
    rintro (⟨_, off, _⟩ | ⟨_, off⟩) <;> cases off

end Call

/-! ## Any calls -/

/-- The chip after calls. -/
def after (calls : List Call) (apu : Apu) : Apu := calls.foldl Call.run apu

/-- `after`, checked. -/
def after? (calls : List Call) (apu : Apu) : Option Apu := calls.foldlM Call.run? apu

theorem after_concat (calls : List Call) (call : Call) (apu : Apu) :
    after (calls ++ [call]) apu = call.run (after calls apu) := by
  unfold after
  rw [List.foldl_append]
  rfl

theorem after_append (first second : List Call) (apu : Apu) :
    after (first ++ second) apu = after second (after first apu) := by
  unfold after
  exact List.foldl_append

theorem bounded_after (h : apu.Bounded) (calls : List Call) : (after calls apu).Bounded := by
  induction calls generalizing apu with
  | nil => exact h
  | cons call calls ih => exact ih (call.bounded_run h)

theorem after?_eq (h : apu.Bounded) (calls : List Call) :
    after? calls apu = some (after calls apu) := by
  induction calls generalizing apu with
  | nil => rfl
  | cons call calls ih =>
    unfold after?
    rw [List.foldlM_cons]
    exact (Checked.bind_some (call.run?_eq h)).trans (ih (call.bounded_run h))

/-- A channel that is on although it was off was switched on, and not switched off since. -/
theorem switchedOn_of_enabled (hoff : (apu.gate voice).enabled = false) {later : List Call}
    (h : ((after later apu).gate voice).enabled = true) :
    ∃ first on second, later = first ++ on :: second ∧ on.SwitchesOn voice ∧
      ∀ call ∈ second, ¬call.SwitchesOff voice := by
  induction later using List.reverseRecOn with
  | nil =>
    rw [show (after [] apu) = apu from rfl, hoff] at h
    cases h
  | append_singleton later call ih =>
    rw [after_concat] at h
    rcases Call.switchesOn_or h with hon | ⟨hstays, hkeeps⟩
    · exact ⟨later, call, [], rfl, hon, by simp⟩
    · obtain ⟨first, on, second, rfl, hon, hsecond⟩ := ih hstays
      refine ⟨first, on, second ++ [call], by simp, hon, ?_⟩
      exact List.forall_mem_append.mpr ⟨hsecond, List.forall_mem_singleton.mpr hkeeps⟩

/-- Among the calls, one switches a channel on, and one after it loads its length; none after the
    first of these switches it off. -/
def Reloaded (voice : Voice) (calls : List Call) : Prop :=
  ∃ first on second load third, calls = first ++ on :: (second ++ load :: third) ∧
    on.SwitchesOn voice ∧ load.Loads voice ∧ ∀ call ∈ second ++ third, ¬call.SwitchesOff voice

/-- A channel that has a length although it was off was switched on and its length was loaded. -/
theorem reloaded_of_length (hidle : (apu.gate voice).length.value = 0)
    (hoff : (apu.gate voice).enabled = false) {later : List Call}
    (h : ((after later apu).gate voice).length.value ≠ 0) : Reloaded voice later := by
  induction later using List.reverseRecOn with
  | nil => exact absurd hidle h
  | append_singleton later call ih =>
    rw [after_concat] at h
    rcases Call.loads_or h with ⟨hloads, hon⟩ | ⟨hlength, hkeeps⟩
    · obtain ⟨first, on, second, rfl, hon, hsecond⟩ := switchedOn_of_enabled hoff hon
      exact ⟨first, on, second, call, [], by simp, hon, hloads, by simpa using hsecond⟩
    · obtain ⟨first, on, second, load, third, rfl, hon, hloads, hrest⟩ := ih hlength
      refine ⟨first, on, second, load, third ++ [call], by simp, hon, hloads, ?_⟩
      rw [← List.append_assoc]
      exact List.forall_mem_append.mpr ⟨hrest, List.forall_mem_singleton.mpr hkeeps⟩

/-- The levels of the channels in the next slice are those that the mixer's tables are made for. -/
structure SamplesBounded (apu : Apu) (ask : Reader) : Prop where
  pulse1 : ∀ level ∈ (apu.pulse1.slice apu.sequencer.next.1).1, level ≤ 15
  pulse2 : ∀ level ∈ (apu.pulse2.slice apu.sequencer.next.1).1, level ≤ 15
  triangle : ∀ level ∈ (apu.triangle.slice apu.sequencer.next.1).1, level ≤ 15
  noise : ∀ level ∈ (apu.noise.slice apu.sequencer.next.1).1, level ≤ 15
  dmc : ∀ level ∈ (apu.dmc.sliceFrom ask).1.levels, level ≤ 127
  pulseIndex : ∀ first ∈ (apu.pulse1.slice apu.sequencer.next.1).1,
    ∀ second ∈ (apu.pulse2.slice apu.sequencer.next.1).1, Mixer.pulseIndex first second ≤ 30
  otherIndex : ∀ first ∈ (apu.triangle.slice apu.sequencer.next.1).1,
    ∀ second ∈ (apu.noise.slice apu.sequencer.next.1).1,
      ∀ third ∈ (apu.dmc.sliceFrom ask).1.levels, Mixer.otherIndex first second third ≤ 202

theorem Bounded.samples (h : apu.Bounded) (ask : Reader) : apu.SamplesBounded ask := by
  have hpulse1 := (h.pulse1.slice apu.sequencer.next.1).1
  have hpulse2 := (h.pulse2.slice apu.sequencer.next.1).1
  have htriangle := (h.triangle.slice apu.sequencer.next.1).1
  have hnoise := (h.noise.slice apu.sequencer.next.1).1
  have hdmc := (h.dmc.sliceFrom ask).1
  refine ⟨hpulse1, hpulse2, htriangle, hnoise, hdmc, ?_, ?_⟩
  · intro first hfirst second hsecond
    exact Mixer.pulseIndex_le (hpulse1 first hfirst) (hpulse2 second hsecond)
  · intro first hfirst second hsecond third hthird
    exact Mixer.otherIndex_le (htriangle first hfirst) (hnoise second hsecond) (hdmc third hthird)

/-- After any calls of the new chip: checked, they give what they give plainly, so no result went
    out of its range and the mixer folded no index; all that the chip keeps is within its bounds,
    and so are the levels of the next slice, whatever its reader; and a channel that one of the
    calls, a write to $4015, switched off has no length unless it was switched on and loaded
    since. -/
theorem calls_in_range (calls : List Call) :
    after? calls {} = some (after calls {}) ∧
      (after calls {}).Bounded ∧
      (∀ ask, (after calls {}).SamplesBounded ask) ∧
      ∀ before value later voice, calls = before ++ .write 0x4015 value :: later →
        bit value voice.flag = false →
        ((after calls {}).gate voice).length.value ≠ 0 → Reloaded voice later := by
  have hbounded : (after calls {}).Bounded := bounded_after bounded_new calls
  refine ⟨after?_eq bounded_new calls, hbounded, hbounded.samples, ?_⟩
  intro before value later voice hcalls hclear hlength
  -- the channel just after the write that switches it off
  have hgate : ((Call.write 0x4015 value).run (after before {})).gate voice =
      ((after before {}).gate voice).set false := by
    unfold Call.run
    rw [gate_write, if_pos rfl, hclear]
  rw [hcalls, after_append] at hlength
  refine reloaded_of_length ?_ ?_ hlength
  · exact congrArg (fun gate => gate.length.value) hgate
  · exact congrArg Gate.enabled hgate

end Apu
end Nes
