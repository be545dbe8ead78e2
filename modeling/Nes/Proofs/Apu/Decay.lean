/-
  The volume of an envelope that starts over, at every clock after that.

  Model (read this before the theorems). An envelope is one counter inside another. The divider
  counts the parameter down to 0, and when it begins again the decay level falls by one; below 0 it
  begins again at 15, or stays. `Envelope.fallen` is a level of 15 after a number of falls, as a
  formula, and `Decays` says where both counters are some clocks after the one that started them:
  the divider has counted the clocks modulo its length, and the level has fallen once for each time
  the divider ran out.

  A clock keeps this (`Decays.clock`), whatever the envelope did before it was started over, so it
  holds after any number of clocks (`decays_after`). The level is then read off the formula.
-/
import Mathlib.Logic.Function.Iterate
import Nes.Proofs.Apu.Bounds

namespace Nes

namespace Envelope

/-! ## The decay level -/

/-- A level of 15 after some falls. -/
def fallen (looping : Bool) (falls : Nat) : Nat :=
  if looping then 15 - falls % 16 else 15 - falls

theorem fall_fallen (e : Envelope) (falls : Nat) :
    e.fall (fallen e.looping falls) = fallen e.looping (falls + 1) := by
  unfold fall fallen
  cases e.looping with
  | true =>
    simp only [if_true]
    split <;> omega
  | false =>
    simp only [Bool.false_eq_true, if_false]
    split <;> omega

theorem fallen_le (looping : Bool) (falls : Nat) : fallen looping falls ≤ 15 := by
  unfold fallen
  split
  · exact Nat.sub_le 15 _
  · exact Nat.sub_le 15 _

/-- The same with negative numbers: the level wraps at 16, or is cut off at 0. -/
theorem cast_fallen (looping : Bool) (falls : Nat) :
    (fallen looping falls : Int) =
      if looping then (15 - (falls : Int)) % 16 else max 0 (15 - (falls : Int)) := by
  unfold fallen
  cases looping with
  | true =>
    simp only [if_true]
    omega
  | false =>
    simp only [Bool.false_eq_true, if_false]
    omega

/-! ## Both counters -/

/-- An envelope with the settings of another one, some clocks after the clock that started it. -/
structure Decays (e settings : Envelope) (clocks : Nat) : Prop where
  started : e.start = false
  looping_eq : e.looping = settings.looping
  constant_eq : e.constant = settings.constant
  param_eq : e.param = settings.param
  divider_eq : e.divider + clocks % (settings.param + 1) = settings.param
  decay_eq : e.decay = fallen settings.looping (clocks / (settings.param + 1))

/-- The first clock after starting over sets both counters, wherever they were. -/
theorem decays_restart (e : Envelope) : e.restart.clock.Decays e 0 := by
  refine ⟨rfl, rfl, rfl, rfl, ?_, ?_⟩
  · rw [Nat.zero_mod]
    rfl
  · rw [Nat.zero_div]
    cases e.looping <;> rfl

variable {e settings : Envelope} {clocks : Nat}

theorem Decays.clock (h : e.Decays settings clocks) : e.clock.Decays settings (clocks + 1) := by
  have hdivider := h.divider_eq
  unfold Envelope.clock
  rw [if_neg (by rw [h.started]; decide)]
  by_cases hcounts : 0 < e.divider
  · -- the divider has not run out, so the clocks do not fill another of its rounds
    have hmore : (clocks + 1) % (settings.param + 1) ≠ 0 :=
      mt Nat.succ_mod_succ_eq_zero_iff.mp (by omega)
    have hrounds := Nat.succ_div_of_mod_ne_zero hmore
    have hrest : (clocks + 1) % (settings.param + 1) = clocks % (settings.param + 1) + 1 := by
      rw [← Nat.mod_add_mod]
      exact Nat.mod_eq_of_lt (by omega)
    rw [if_pos hcounts]
    refine ⟨h.started, h.looping_eq, h.constant_eq, h.param_eq, ?_, ?_⟩
    · rw [hrest]
      show e.divider - 1 + _ = _
      omega
    · rw [hrounds]
      exact h.decay_eq
  · have hlast : (clocks + 1) % (settings.param + 1) = 0 :=
      Nat.succ_mod_succ_eq_zero_iff.mpr (by omega)
    have hrounds := Nat.succ_div_of_mod_eq_zero hlast
    rw [if_neg hcounts]
    refine ⟨h.started, h.looping_eq, h.constant_eq, h.param_eq, ?_, ?_⟩
    · rw [hlast]
      exact h.param_eq
    · show e.fall e.decay = _
      rw [hrounds, h.decay_eq, ← h.looping_eq]
      exact e.fall_fallen _

theorem decays_after (e : Envelope) (clocks : Nat) :
    (Envelope.clock^[clocks] e.restart.clock).Decays e clocks := by
  induction clocks with
  | zero => exact decays_restart e
  | succ clocks ih =>
    rw [Function.iterate_succ_apply']
    exact ih.clock

/-! ## The result -/

/-- Any envelope starts over, and its settings then stay as they are. At clock `n` the decay level
    is 15 less one for each `param + 1` clocks since the first, wrapping at 16 if it loops and cut
    off at 0 if not. The volume is the parameter if it is constant and the decay level if not, and
    at most 15. -/
theorem decays_from_fifteen (e : Envelope) (four_bits : e.param ≤ 15) {n : Nat} (clocked : 1 ≤ n) :
    let later := Envelope.clock^[n] e.restart
    let falls : Int := ((n : Int) - 1) / ((e.param : Int) + 1)
    (later.decay : Int) = (if e.looping then (15 - falls) % 16 else max 0 (15 - falls)) ∧
      later.volume = (if e.constant then e.param else later.decay) ∧ later.volume ≤ 15 := by
  intro later falls
  obtain ⟨clocks, rfl⟩ : ∃ clocks, n = clocks + 1 := ⟨n - 1, by omega⟩
  have hlater : later.Decays e clocks := by
    have hafter := decays_after e clocks
    rwa [← Function.iterate_succ_apply] at hafter
  have hfalls : falls = ((clocks / (e.param + 1) : Nat) : Int) := by
    simp [falls]
  have hdecay : later.decay ≤ 15 := by
    rw [hlater.decay_eq]
    exact fallen_le _ _
  have hvolume : later.volume = if e.constant then e.param else later.decay := by
    unfold volume
    rw [hlater.constant_eq, hlater.param_eq]
  refine ⟨?_, hvolume, ?_⟩
  · rw [hlater.decay_eq, hfalls]
    exact cast_fallen _ _
  · rw [hvolume]
    split
    · exact four_bits
    · exact hdecay

/-- With a parameter of 2, the level is 0 from clock 46 to clock 48, and at the next one it begins
    again at 15. -/
theorem decays_from_fifteen_twice :
    let e : Envelope := { looping := true, param := 2, divider := 1, decay := 7 }
    e.param ≤ 15 ∧ (Envelope.clock^[48] e.restart).volume = 0 ∧
      (Envelope.clock^[49] e.restart).volume = 15 := by
  intro e
  have hparam : e.param ≤ 15 := by decide
  obtain ⟨hlow, hvolume, _⟩ := decays_from_fifteen e hparam (show 1 ≤ 48 by decide)
  obtain ⟨hhigh, hvolume', _⟩ := decays_from_fifteen e hparam (show 1 ≤ 49 by decide)
  have hempty := hlow.trans (show _ = (0 : Int) by decide)
  have hfull := hhigh.trans (show _ = (15 : Int) by decide)
  refine ⟨hparam, hvolume.trans ?_, hvolume'.trans ?_⟩
  · exact Int.ofNat.inj hempty
  · exact Int.ofNat.inj hfull

end Envelope
end Nes
