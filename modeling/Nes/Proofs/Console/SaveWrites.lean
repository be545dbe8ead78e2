/-
  How often a frame can write to save RAM.

  The count of writes is 32 bits wide and wraps. `SaveRam.Written` counts without a limit, and
  agrees with it up to a multiple of 2³² (`Written.writes_eq`). An access by the CPU writes once
  at most, a step four times (`SaveRam.within_step`), and a scanline has `lineSteps` steps at
  most; so a frame is far from going around the count (`Scan.within_frame`), and the distance
  between its counts is the number of its writes (`Written.count_eq`).
-/
import Mathlib.Algebra.GroupWithZero.Nat
import Nes.Proofs.Console.Memories

namespace Nes

namespace SaveRam

/-- Save RAM before and after `count` writes by the CPU. -/
inductive Written (save : SaveRam) : (count : Nat) → SaveRam → Prop
  | none : Written save 0 save
  | write {count : Nat} {written : SaveRam} (h : Written save count written) (offset : Nat)
      (value : UInt8) : Written save (count + 1) (written.write offset value)

/-- Save RAM before and after `bound` writes at most. -/
def Within (save : SaveRam) (bound : Nat) (after : SaveRam) : Prop :=
  ∃ count, count ≤ bound ∧ save.Written count after

section
variable {a b c : SaveRam} {count count' bound bound' : Nat}

theorem Written.trans (h : a.Written count b) (h' : b.Written count' c) :
    a.Written (count + count') c := by
  induction h' with
  | none => exact h
  | write _ offset value ih => exact ih.write offset value

theorem Written.eq_of_zero (h : a.Written 0 b) : b = a := by
  cases h
  rfl

/-- The count of writes goes up by one for each. -/
theorem Written.writes_eq (h : a.Written count b) : b.writes = a.writes + UInt32.ofNat count := by
  induction h with
  | none => simp
  | @write count written _ offset value ih =>
    show written.writes + 1 = _
    rw [ih, UInt32.add_assoc, UInt32.ofNat_add]
    rfl

/-- As long as the count does not go around, its distance is the number of writes. -/
theorem Written.count_eq (h : a.Written count b) (few : count < 2 ^ 32) :
    (b.writes - a.writes).toNat = count := by
  rw [h.writes_eq, UInt32.add_comm, UInt32.add_sub_cancel, UInt32.toNat_ofNat']
  exact Nat.mod_eq_of_lt few

/-- Then save RAM is the same as before if the count is. -/
theorem Written.eq_of_writes (h : a.Written count b) (few : count < 2 ^ 32)
    (same : b.writes = a.writes) : b = a := by
  have hcount := h.count_eq few
  rw [same, UInt32.sub_self] at hcount
  subst hcount
  exact h.eq_of_zero

theorem Within.refl (save : SaveRam) : save.Within bound save := ⟨0, Nat.zero_le _, .none⟩

theorem Within.trans (h : a.Within bound b) (h' : b.Within bound' c) :
    a.Within (bound + bound') c := by
  obtain ⟨count, hcount, hwritten⟩ := h
  obtain ⟨count', hcount', hwritten'⟩ := h'
  exact ⟨count + count', Nat.add_le_add hcount hcount', hwritten.trans hwritten'⟩

theorem Within.mono (h : a.Within bound b) (hbound : bound ≤ bound') : a.Within bound' b := by
  obtain ⟨count, hcount, hwritten⟩ := h
  exact ⟨count, Nat.le_trans hcount hbound, hwritten⟩

theorem Within.of_eq (h : b = a) : a.Within bound b := by
  subst h
  exact .refl b

end

/-! ## Accesses and steps of the CPU -/

/-- A write by the CPU is one write to save RAM, or none. -/
theorem within_write (system : System) (addr : UInt16) (data : UInt8) :
    system.cartridge.save.Within 1 (system.write addr data).cartridge.save := by
  unfold System.write
  dsimp only
  split
  · exact .refl _
  · split
    · exact .refl _
    · exact .refl _
    · refine .of_eq ?_
      have hmemories := System.memories_writeIo (system.mapIo (·.drive data)) addr data
      exact congrArg Prod.snd hmemories
    · exact ⟨1, Nat.le_refl 1, .write .none _ data⟩
    · exact .refl _
    · exact .refl _

theorem within_trail {a b : System} {pushes stores : Nat} (h : Bus.Trail a pushes stores b) :
    a.cartridge.save.Within (pushes + stores) b.cartridge.save := by
  induction h with
  | refl => exact .refl _
  | @read _ _ bus _ addr ih =>
    show Within _ _ (bus.read addr).2.cartridge.save
    rw [System.read_cartridge]
    exact ih
  | takeNmi _ ih => exact ih
  | @push pushes stores bus _ s value ih =>
    exact (ih.trans (within_write bus _ value)).mono (by omega)
  | @store pushes stores bus _ addr value ih =>
    exact (ih.trans (within_write bus addr value)).mono (by omega)

/-- Three bytes pushed at most, and one stored. -/
theorem within_step (m : Machine System) :
    m.bus.cartridge.save.Within 4 m.step.2.bus.cartridge.save := within_trail m.trail_step

theorem within_spend (m : Machine System) (fuel : Nat) :
    m.bus.cartridge.save.Within (4 * fuel) (m.spend fuel).bus.cartridge.save := by
  induction fuel generalizing m with
  | zero => exact .refl _
  | succ fuel ih =>
    unfold Machine.spend
    split
    · exact ((within_step m).trans (ih (m.step.2.charge m.step.1))).mono (by omega)
    · exact .refl _

end SaveRam

/-! ## Scanlines and frames -/

namespace Scan

open SaveRam

/-- Writes to save RAM that the CPU has time for in a scanline. -/
def lineWrites : Nat := 4 * Machine.lineSteps

theorem save_draw (scan : Scan) (line : Nat) :
    (scan.draw line).machine.bus.cartridge.save = scan.machine.bus.cartridge.save := by
  have hvblank : (if line = vblankLine then scan.machine.bus.vblank
      else scan.machine.bus).cartridge.save = scan.machine.bus.cartridge.save := by
    split <;> rfl
  exact hvblank

theorem within_line (scan : Scan) (line : Nat) :
    scan.machine.bus.cartridge.save.Within lineWrites
      (scan.line line).machine.bus.cartridge.save := by
  have hcompute : scan.machine.bus.cartridge.save.Within lineWrites
      ((scan.draw line).compute line).machine.bus.cartridge.save := by
    have hspend := within_spend ((scan.draw line).machine.beginLine (UInt16.ofNat line))
      Machine.lineSteps
    rw [← save_draw scan line]
    exact hspend
  unfold Scan.line
  dsimp only
  split
  · exact hcompute
  · exact hcompute

/-- Scanlines one after the other. -/
theorem within_lines (scan : Scan) (lines : List Nat) :
    scan.machine.bus.cartridge.save.Within (lineWrites * lines.length)
      (lines.foldl Scan.line scan).machine.bus.cartridge.save := by
  induction lines generalizing scan with
  | nil => exact .refl _
  | cons line lines ih =>
    rw [List.length_cons, Nat.mul_succ, Nat.add_comm]
    exact (within_line scan line).trans (ih (scan.line line))

/-- A frame, or its first lines. -/
theorem within_frame (scan : Scan) {lines : Nat} (h : lines ≤ frameLines) :
    scan.machine.bus.cartridge.save.Within (lineWrites * frameLines)
      ((List.range lines).foldl Scan.line scan).machine.bus.cartridge.save := by
  have hlines := within_lines scan (List.range lines)
  rw [List.length_range] at hlines
  exact hlines.mono (Nat.mul_le_mul_left _ h)

end Scan
end Nes
