/-
  A program that writes to save RAM without end.

  It stores A at one address, and then jumps back to the store. So every other step is a store
  (`circling_laps`). The laps of a scanline take up its cycles, and none takes longer than
  `lapLimit`; so with every scanline the program stores a number of times, but for what the lines
  before it left over (`circling_runLine`). A frame is long enough for at least one store, and
  too short for the count of writes to go around (`circling_frame`).
-/
import Mathlib.Algebra.Order.BigOperators.Group.List
import Mathlib.Algebra.Order.Group.Nat
import Nes.Proofs.Console.CpuTime
import Nes.Proofs.Console.IdleLoop
import Nes.Proofs.Console.SaveWrites

namespace Nes

namespace Machine

variable {image : Image} {start addr : UInt16} {offset : Nat} {save : SaveRam} {jumping : Bool}
  {m last : Machine System} {laps : List Lap}

/-- The CPU runs a program that stores A and jumps back. What comes next is the jump, or else the
    store. -/
structure Circling (image : Image) (start addr : UInt16) (offset : Nat) (save : SaveRam)
    (jumping : Bool) (m : Machine System) : Prop extends Calm image save m where
  program : image.Stores start start addr offset
  pc_eq : m.cpu.pc = if jumping then start + 1 + 1 + 1 else start

theorem circling_step (h : Circling image start addr offset save jumping m) :
    ∃ stored, save.Written (!jumping).toNat stored ∧
      Circling image start addr offset stored (!jumping) m.step.2 := by
  have hpc := h.pc_eq
  cases jumping with
  | false =>
    have hstore : image.Absolute m.cpu.pc 0x8D addr := by
      rw [hpc]
      exact h.program.store
    obtain ⟨hcalm, hnext⟩ := calm_store h.toCalm hstore h.program.below h.program.resolves
    rw [hpc] at hnext
    exact ⟨_, .write .none offset m.cpu.a, hcalm, h.program, hnext⟩
  | true =>
    have hjump : image.Absolute m.cpu.pc 0x4C start := by
      rw [hpc]
      exact h.program.jump
    obtain ⟨hcalm, hnext⟩ := calm_jump h.toCalm hjump
    exact ⟨save, .none, hcalm, h.program, hnext⟩

/-- Every other lap of a scanline is a store. -/
theorem circling_laps (h : Circling image start addr offset save jumping m)
    (hlaps : m.Laps laps last) :
    ∃ count stored jumping', save.Written count stored ∧
      Circling image start addr offset stored jumping' last ∧
      laps.length + jumping'.toNat = 2 * count + jumping.toNat := by
  induction hlaps generalizing save jumping with
  | full => exact ⟨0, save, jumping, .none, h, by simp⟩
  | @lap m _ laps _ _ ih =>
    obtain ⟨written, hwritten, hstep⟩ := circling_step h
    have hlap : Circling image start addr offset written (!jumping) m.afterLap :=
      ⟨calm_charge hstep.toCalm m.step.1, hstep.program, hstep.pc_eq⟩
    obtain ⟨count, stored, jumping', hstored, hlast, hcount⟩ := ih hlap
    refine ⟨(!jumping).toNat + count, stored, jumping', hwritten.trans hstored, hlast, ?_⟩
    rw [List.length_cons]
    cases jumping <;> simp at hcount ⊢ <;> omega

/-- The longest lap: the longest step and the longest wait. -/
def lapLimit : Nat := 20 + waitLimit

/-- The laps of a scanline take up its cycles. -/
theorem Laps.lineCycles_le_mul (h : m.Laps laps last) (onTime : m.OnTime)
    (noReset : m.cpu.pending ≠ .reset) :
    lineCycles + last.endLine.cpu.cycles ≤ m.cpu.cycles + lapLimit * laps.length := by
  have hfull := h.lineCycles_le
  have hsum := (h.total noReset).1
  have hprompt := (h.prompt onTime.stall_eq).1
  have hspent := h.spent_le
  have hlaps : (laps.map Lap.cycles).sum ≤ (laps.map Lap.cycles).length * lapLimit := by
    refine List.sum_le_card_nsmul _ lapLimit fun cycles hmem => ?_
    obtain ⟨lap, hlap, rfl⟩ := List.mem_map.mp hmem
    exact Nat.add_le_add (hspent lap hlap) (hprompt lap hlap)
  rw [List.length_map, Nat.mul_comm] at hlaps
  show lineCycles + (last.cpu.cycles - lineCycles) ≤ _
  omega

/-- How far a program that stores and jumps gets in a number of scanlines: it stores `count` times,
    as often as there is time for, and no more often than there are laps. -/
structure Progress (lines count : Nat) (before after : Machine System) (jumping jumping' : Bool) :
    Prop where
  time : lineCycles * lines + after.cpu.cycles + lapLimit * jumping'.toNat ≤
    before.cpu.cycles + lapLimit * (2 * count + jumping.toNat)
  count_le : count ≤ lineSteps * lines

theorem circling_runLine (h : Circling image start addr offset save jumping m)
    (onTime : m.OnTime) (line : UInt16) :
    ∃ count stored jumping', save.Written count stored ∧
      Circling image start addr offset stored jumping' (m.runLine line) ∧
      Progress 1 count m (m.runLine line) jumping jumping' := by
  have hbegin : Circling image start addr offset save jumping (m.beginLine line) :=
    ⟨⟨h.resting, h.masked, h.pending⟩, h.program, h.pc_eq⟩
  have noReset : m.cpu.pending ≠ .reset := by
    obtain hpending | hpending := h.pending <;> rw [hpending] <;> decide
  obtain ⟨laps, last, hlaps, _⟩ := exists_laps (m.beginLine line)
  obtain ⟨count, stored, jumping', hstored, hlast, hcount⟩ := circling_laps hbegin hlaps
  have htime := hlaps.lineCycles_le_mul ⟨onTime.stall_eq, onTime.cycles_le⟩ noReset
  have hmost := hlaps.length_le
  have hnext := Bool.toNat_le jumping'
  rw [hlaps.runLine_eq]
  refine ⟨count, stored, jumping', hstored,
    ⟨⟨hlast.resting, hlast.masked, hlast.pending⟩, hlast.program, hlast.pc_eq⟩, ?_, ?_⟩
  · rw [← hcount, Nat.mul_add]
    have hstart : (m.beginLine line).cpu.cycles = m.cpu.cycles := rfl
    rw [hstart] at htime
    omega
  · omega

end Machine

/-! ## Frames -/

namespace Scan

open Machine

variable {image : Image} {start addr : UInt16} {offset : Nat} {save : SaveRam} {jumping : Bool}
  {scan : Scan}

theorem circling_listen (h : Circling image start addr offset save jumping scan.machine) :
    Circling image start addr offset save jumping scan.listen.machine := by
  have hbus : scan.listen.machine.bus.Resting image save := by
    unfold listen
    dsimp only
    exact System.resting_mapApu h.resting fun apu => (apu.slice (peekMemory _ _ _)).2
  exact ⟨⟨hbus, h.masked, h.pending⟩, h.program, h.pc_eq⟩

theorem circling_line (h : Circling image start addr offset save jumping scan.machine)
    (onTime : scan.machine.OnTime) (line : Nat) :
    ∃ count stored jumping', save.Written count stored ∧
      Circling image start addr offset stored jumping' (scan.line line).machine ∧
      Progress 1 count scan.machine (scan.line line).machine jumping jumping' := by
  have hdraw : Circling image start addr offset save jumping (scan.draw line).machine :=
    ⟨calm_draw h.toCalm line, h.program, h.pc_eq⟩
  obtain ⟨count, stored, jumping', hstored, hline, hprogress⟩ :=
    circling_runLine hdraw (onTime_draw onTime line) (UInt16.ofNat line)
  unfold Scan.line
  dsimp only
  split
  · exact ⟨count, stored, jumping', hstored, circling_listen hline, hprogress.time,
      hprogress.count_le⟩
  · exact ⟨count, stored, jumping', hstored, hline, hprogress.time, hprogress.count_le⟩

theorem circling_lines (h : Circling image start addr offset save jumping scan.machine)
    (onTime : scan.machine.OnTime) (lines : List Nat) :
    ∃ count stored jumping', save.Written count stored ∧
      Circling image start addr offset stored jumping' (lines.foldl Scan.line scan).machine ∧
      Progress lines.length count scan.machine (lines.foldl Scan.line scan).machine jumping
        jumping' := by
  induction lines generalizing scan save jumping with
  | nil => exact ⟨0, save, jumping, .none, h, by simp, Nat.zero_le _⟩
  | cons line lines ih =>
    obtain ⟨first, written, between, hwritten, hline, hfirst⟩ := circling_line h onTime line
    obtain ⟨later, stored, jumping', hstored, hlast, hlater⟩ :=
      ih hline (onTime_line onTime line)
    have htime := hfirst.time
    have htimes := hlater.time
    have hcount := hfirst.count_le
    have hcounts := hlater.count_le
    refine ⟨first + later, stored, jumping', hwritten.trans hstored, hlast, ?_, ?_⟩
    · rw [List.foldl_cons, List.length_cons]
      simp only [Nat.mul_add, Nat.mul_one] at htime htimes ⊢
      omega
    · rw [List.length_cons, Nat.mul_succ]
      omega

/-- In a frame the program stores its byte at least once, and not often enough for the count of
    writes to go around. -/
theorem circling_frame (h : Circling image start addr offset save jumping scan.machine)
    (onTime : scan.machine.OnTime) :
    ∃ count stored jumping', 0 < count ∧ count ≤ lineSteps * frameLines ∧
      save.Written count stored ∧
      Circling image start addr offset stored jumping' scan.frame.machine := by
  obtain ⟨count, stored, jumping', hstored, hframe, hprogress⟩ :=
    circling_lines h onTime (List.range frameLines)
  have htime := hprogress.time
  have hsurplus := onTime.cycles_le
  have hjump := Bool.toNat_le jumping
  rw [List.length_range] at hprogress htime
  refine ⟨count, stored, jumping', ?_, hprogress.count_le, hstored, hframe⟩
  unfold lineCycles frameLines lapLimit waitLimit at htime
  unfold surplusLimit at hsurplus
  omega

end Scan
end Nes
