/-
  How long the tones of the channels last.

  Model (read this before the theorems). A slice of sound begins with one step of the sequencer,
  which gives the channels their clocks. `FrameMode.halves` counts the half-frame clocks in the
  first slices of a sequence, by the schedule alone.

  One slice changes a channel's tone by the clock it got and by nothing else (`tone_sliceFrom`), and
  it moves the sequencer one step on (`Stepped.next`). Together they are `Sounding`, which a slice
  keeps; the length that is left is the one that was loaded less the half frames since.
-/
import Nes.Proofs.Apu.Calls

namespace Nes

/-! ## The sequence -/

/-- The half-frame clocks in the first `slices` slices of a sequence: every second slice of four
    has one, and the second and the last of five. -/
def FrameMode.halves : FrameMode → (slices : Nat) → Nat
  | fourStep, slices => slices / 2
  | fiveStep, slices => 2 * (slices / 5) + if 2 ≤ slices % 5 then 1 else 0

/-- The sequencer some steps after a write to $4017, and whether its IRQ was raised by then. -/
structure Sequencer.Stepped (s : Sequencer) (mode : FrameMode) (inhibit irq : Bool) (steps : Nat) :
    Prop where
  mode_eq : s.mode = mode
  inhibit_eq : s.inhibit = inhibit
  step_eq : s.step = steps % mode.steps
  irq_iff : s.irq = true ↔ irq = true ∨ mode = .fourStep ∧ inhibit = false ∧ 4 ≤ steps

namespace Sequencer

theorem stepped_write (s : Sequencer) (value : UInt8) :
    (s.write value).Stepped (if bit value 7 then .fiveStep else .fourStep) (bit value 6)
      (s.irq && !bit value 6) 0 := by
  refine ⟨rfl, rfl, (Nat.zero_mod _).symm, ?_⟩
  show (s.irq && !bit value 6) = true ↔ _
  simp

variable {s : Sequencer} {mode : FrameMode} {inhibit irq : Bool} {steps : Nat}

/-- One step, and the half-frame clock that it gives. -/
theorem Stepped.next (h : s.Stepped mode inhibit irq steps) :
    s.next.2.Stepped mode inhibit irq (steps + 1) ∧
      mode.halves (steps + 1) = mode.halves steps + s.next.1.half.toNat := by
  obtain ⟨mode', step, inhibit', raised⟩ := s
  obtain ⟨hmode, hinhibit, hstep, hirq⟩ := h
  dsimp only at hmode hinhibit hstep hirq
  subst hmode hinhibit
  cases mode' with
  | fourStep =>
    have hsteps : step = steps % 4 := hstep
    refine ⟨⟨rfl, rfl, ?_, ?_⟩, ?_⟩
    · show (step + 1) % 4 = (steps + 1) % 4
      omega
    · show (raised || ((step + 1) % 4 == 0 && !inhibit')) = true ↔ _
      simp only [Bool.or_eq_true, Bool.and_eq_true, beq_iff_eq, Bool.not_eq_true', hirq]
      have hwrap : (step + 1) % 4 = 0 → 4 ≤ steps + 1 := by omega
      have hfirst : 4 ≤ steps + 1 → 4 ≤ steps ∨ (step + 1) % 4 = 0 := by omega
      grind
    · show (steps + 1) / 2 = steps / 2 + (step % 2 == 1).toNat
      obtain heven | hodd : step % 2 = 0 ∨ step % 2 = 1 := by omega
      · rw [heven]
        show (steps + 1) / 2 = steps / 2 + 0
        omega
      · rw [hodd]
        show (steps + 1) / 2 = steps / 2 + 1
        omega
  | fiveStep =>
    have hsteps : step = steps % 5 := hstep
    refine ⟨⟨rfl, rfl, ?_, ?_⟩, ?_⟩
    · show (step + 1) % 5 = (steps + 1) % 5
      omega
    · show raised = true ↔ _
      simpa using hirq
    · show 2 * ((steps + 1) / 5) + (if 2 ≤ (steps + 1) % 5 then 1 else 0) =
        2 * (steps / 5) + (if 2 ≤ steps % 5 then 1 else 0) + (step == 1 || step == 4).toNat
      have hlt : step < 5 := by omega
      obtain rfl | rfl | rfl | rfl | rfl :
          step = 0 ∨ step = 1 ∨ step = 2 ∨ step = 3 ∨ step = 4 := by omega
      all_goals
        simp only [Nat.reduceBEq, Bool.or_false, Bool.or_true, Bool.toNat_true, Bool.toNat_false]
        split <;> split <;> omega

end Sequencer

/-! ## Registers -/

namespace Voice

/-- The address of the register that halts the length. -/
def haltAddress : Voice → UInt16
  | pulse1 => 0x4000
  | pulse2 => 0x4004
  | triangle => 0x4008
  | noise => 0x400C

/-- The bit that does so. -/
def haltFlag : Voice → Nat
  | triangle => 7
  | pulse1 | pulse2 | noise => 5

end Voice

namespace Apu

/-! ## Any number of slices -/

/-- A channel sounds that some slices ago was given a length, just when the sequence began. -/
structure Sounding (apu : Apu) (voice : Voice) (length : Nat) (mode : FrameMode)
    (inhibit irq : Bool) (slices : Nat) : Prop where
  sequencer : apu.sequencer.Stepped mode inhibit irq slices
  halted_eq : (apu.tone voice).halted = false
  length_eq : (apu.tone voice).gate.length.value = length - mode.halves slices

variable {apu : Apu} {voice : Voice} {length : Nat} {mode : FrameMode} {inhibit irq : Bool}
  {slices : Nat}

theorem Sounding.next (h : apu.Sounding voice length mode inhibit irq slices) (ask : Reader) :
    (apu.sliceFrom ask).2.Sounding voice length mode inhibit irq (slices + 1) := by
  obtain ⟨hstepped, hhalves⟩ := h.sequencer.next
  refine ⟨hstepped, ?_, ?_⟩
  · rw [tone_sliceFrom, Tone.halted_clock]
    exact h.halted_eq
  · rw [tone_sliceFrom, Tone.length_clock h.halted_eq, h.length_eq, hhalves, Nat.sub_sub]

theorem Sounding.after (h : apu.Sounding voice length mode inhibit irq slices)
    (asks : List Reader) :
    (after (asks.map .slice) apu).Sounding voice length mode inhibit irq
      (slices + asks.length) := by
  induction asks generalizing apu slices with
  | nil => exact h
  | cons ask asks ih =>
    have hlater := ih (h.next ask)
    rw [Nat.add_assoc, Nat.add_comm 1] at hlater
    exact hlater

/-- The sequence begins, and a channel that is on and not halted is given a length. -/
theorem sounding_begun (apu : Apu) (voice : Voice) (frame status control value : UInt8)
    (on : bit status voice.flag = true) (unhalted : bit control voice.haltFlag = false) :
    (after [.write 0x4017 frame, .write 0x4015 status, .write voice.haltAddress control,
      .write voice.lengthAddress value] apu).Sounding voice
        (LengthCounter.table.get (wrap (value.toNat / 8)))
        (if bit frame 7 then .fiveStep else .fourStep) (bit frame 6)
        (apu.sequencer.irq && !bit frame 6) 0 := by
  have hsequencer : (after [.write 0x4017 frame, .write 0x4015 status,
      .write voice.haltAddress control, .write voice.lengthAddress value] apu).sequencer =
      apu.sequencer.write frame := by
    cases voice <;> rfl
  have htone : (after [.write 0x4017 frame, .write 0x4015 status,
      .write voice.haltAddress control, .write voice.lengthAddress value] apu).tone voice =
      ⟨((apu.gate voice).set (bit status voice.flag)).load value, bit control voice.haltFlag⟩ := by
    cases voice <;> rfl
  refine ⟨?_, ?_, ?_⟩
  · rw [hsequencer]
    exact apu.sequencer.stepped_write frame
  · rw [htone]
    exact unhalted
  · rw [htone, on]
    have hbegin : ∀ mode : FrameMode, mode.halves 0 = 0 := fun mode => by cases mode <;> rfl
    rw [hbegin]
    rfl

/-- A channel of any chip is given a length at the begin of a sequence, and then slices are taken.
    It is reported in $4015 just while fewer half frames have passed than the length that the top
    five bits chose. If no frame IRQ was raised before, one is after four slices of the sequence of
    four, unless that is inhibited. A read of $4015 withdraws it and leaves all lengths alone. -/
theorem sounds_for_its_length (calls : List Call) (voice : Voice)
    (frame status control value : UInt8) (on : bit status voice.flag = true)
    (unhalted : bit control voice.haltFlag = false) (asks : List Reader) :
    let before := after calls {}
    let begun := after [.write 0x4017 frame, .write 0x4015 status,
      .write voice.haltAddress control, .write voice.lengthAddress value] before
    let last := after (asks.map .slice) begun
    let mode : FrameMode := if bit frame 7 then .fiveStep else .fourStep
    (bit last.readStatus.1 voice.flag = true ↔
        mode.halves asks.length < LengthCounter.table.get (wrap (value.toNat / 8))) ∧
      (before.sequencer.irq = false →
        (bit last.readStatus.1 6 = true ↔
          mode = .fourStep ∧ bit frame 6 = false ∧ 4 ≤ asks.length)) ∧
      bit last.readStatus.1 6 = last.sequencer.irq ∧
      last.readStatus.2.sequencer.irq = false ∧
      ∀ other : Voice, last.readStatus.2.gate other = last.gate other := by
  intro before begun last mode
  have hlast := (sounding_begun before voice frame status control value on unhalted).after asks
  rw [Nat.zero_add] at hlast
  refine ⟨?_, fun clear => ?_, bit_readStatus_frameIrq last, rfl, fun other => ?_⟩
  · have hlength := hlast.length_eq
    rw [tone_gate] at hlength
    have hactive : (last.gate voice).length.active = true ↔ 0 < (last.gate voice).length.value := by
      simp [LengthCounter.active]
    rw [bit_readStatus, hactive, hlength]
    exact Nat.sub_pos_iff_lt
  · have hirq := hlast.sequencer.irq_iff
    rw [clear] at hirq
    rw [bit_readStatus_frameIrq, hirq]
    simp [mode]
  · cases other <;> rfl

/-- In the sequence of five, a noise with a length of two ends in the fifth slice. -/
theorem sounds_for_its_length_of_two :
    let begun := after [.write 0x4017 0x80, .write 0x4015 0x08, .write 0x400C 0x1F,
      .write 0x400F 0x18] (after [] {})
    let last (slices : Nat) : Apu :=
      after ((List.replicate slices fun _ _ => (0 : UInt8)).map .slice) begun
    bit (last 4).readStatus.1 3 = true ∧ bit (last 5).readStatus.1 3 = false := by
  intro begun last
  have hsounds (slices : Nat) : bit (last slices).readStatus.1 3 = true ↔
      FrameMode.fiveStep.halves slices < 2 := by
    have hgeneral := (sounds_for_its_length [] .noise 0x80 0x08 0x1F 0x18 (by decide) (by decide)
      (List.replicate slices fun _ _ => (0 : UInt8))).1
    rw [List.length_replicate] at hgeneral
    exact hgeneral
  refine ⟨(hsounds 4).mpr (by decide), ?_⟩
  rw [Bool.eq_false_iff]
  exact mt (hsounds 5).mp (by decide)

end Apu
end Nes
