/-
  The line counter of an MMC3.

  Model (read this before the theorems). A program starts the counter with four writes, and answers
  every IRQ with two (`System.startCounter`, `System.acknowledge`). Between the ends of two lines
  anything may happen to the rest of the console, and rendering may be switched on and off
  (`LineEnd`). `System.hblanks` are the ends of lines as the board meets them.

  The counter is reloaded when it is zero and else counts down, so that the counted lines and the
  counter together are a multiple of the latch and one (`Mmc3.Counting`). All about the period
  follows from that, the first one included: it starts from a counter of zero, too.
-/
import Nes.Proofs.Board.StartOver
import Nes.Proofs.Console.Steps

namespace Nes

/-- The counter of an MMC3 after a number of counted lines since it was started. -/
structure Mmc3.Counting (board : Mmc3) (latch : UInt8) (lines : Nat) : Prop where
  latch_eq : board.irqLatch = latch
  enabled : board.irqEnabled = true
  counter_le : board.irqCounter.toNat ≤ latch.toNat
  dvd : latch.toNat + 1 ∣ lines + board.irqCounter.toNat
  reload : board.irqReload = true → board.irqCounter = 0

/-- The end of a line, and what surrounds it. -/
structure LineEnd where
  /-- What happened to the rest of the console since the line before. -/
  between : Hardware → Hardware
  line : Nat
  /-- The data of the two writes that answer an IRQ. -/
  data : UInt8 × UInt8

/-- The end of a line as the board meets it. -/
structure Hblank where
  before : System
  line : Nat

namespace Hblank

def after (hblank : Hblank) : System := hblank.before.hblank hblank.line

/-- The line is high after it and was not before. -/
def raises (hblank : Hblank) : Bool := !hblank.before.cartridge.irq && hblank.after.cartridge.irq

/-- The line is one that the counter counts, and it is rendered. -/
def counted (hblank : Hblank) : Bool :=
  (hblank.line < 240 || hblank.line == 261) && hblank.before.hardware.ppu.rendering

end Hblank

/-- What can happen to a cartridge in the console. -/
inductive Happening
  | event (event : System.Event)
  /-- The board starts over. -/
  | start (kind : ResetKind)

namespace System

/-- A program's answer to an IRQ: the line is released, and the next one is enabled. -/
def acknowledge (system : System) (data : UInt8 × UInt8) : System :=
  (system.write 0xE000 data.1).write 0xE001 data.2

/-- A program starts the counter. -/
def startCounter (system : System) (latch reload : UInt8) (data : UInt8 × UInt8) : System :=
  ((system.write 0xC000 latch).write 0xC001 reload).acknowledge data

/-- The ends of lines, one after the other. Every IRQ is answered before the next one. -/
def hblanks (system : System) : List LineEnd → List Hblank
  | [] => []
  | lineEnd :: ends =>
    let hblank : Hblank :=
      ⟨{ system with hardware := lineEnd.between system.hardware }, lineEnd.line⟩
    let answered :=
      if hblank.after.cartridge.irq then hblank.after.acknowledge lineEnd.data else hblank.after
    hblank :: answered.hblanks ends

/-- The system after one thing happened. -/
def undergo (system : System) : Happening → System
  | .event event => system.happen event
  | .start kind => system.initBoard kind

end System

/-! ## The counter -/

namespace Mmc3

/-- A counted line. -/
theorem Counting.countLine {board : Mmc3} {latch : UInt8} {lines : Nat}
    (h : board.Counting latch lines) : board.countLine.Counting latch (lines + 1) := by
  have hle := h.counter_le
  have hdvd := h.dvd
  unfold Mmc3.countLine
  by_cases hzero : board.irqCounter = 0
  · rw [if_pos (by simp [hzero])]
    rw [hzero] at hdvd
    refine ⟨h.latch_eq, h.enabled, ?_, ?_, fun hreload => nomatch hreload⟩
    · exact Nat.le_of_eq (congrArg UInt8.toNat h.latch_eq)
    · show latch.toNat + 1 ∣ lines + 1 + board.irqLatch.toNat
      rw [h.latch_eq, Nat.add_assoc, Nat.add_comm 1]
      exact Nat.dvd_add hdvd (Nat.dvd_refl _)
  · have hreload : board.irqReload = false := by
      rw [Bool.eq_false_iff]
      exact mt h.reload hzero
    rw [if_neg (by simp [hzero, hreload])]
    have hone : 1 ≤ board.irqCounter.toNat := by
      rw [Nat.one_le_iff_ne_zero]
      exact fun heq => hzero (UInt8.toNat_inj.mp heq)
    have hless : (board.irqCounter - 1).toNat = board.irqCounter.toNat - 1 :=
      UInt8.toNat_sub_of_le _ _ (UInt8.le_iff_toNat_le.mpr hone)
    refine ⟨h.latch_eq, h.enabled, ?_, ?_, fun habsurd => ?_⟩
    · show (board.irqCounter - 1).toNat ≤ latch.toNat
      omega
    · show latch.toNat + 1 ∣ lines + 1 + (board.irqCounter - 1).toNat
      rw [hless, Nat.add_assoc, Nat.add_sub_cancel' hone]
      exact hdvd
    · rw [hreload] at habsurd
      cases habsurd

/-- The counter is zero once in a period. -/
theorem Counting.counter_eq_zero {board : Mmc3} {latch : UInt8} {lines : Nat}
    (h : board.Counting latch lines) : board.irqCounter = 0 ↔ latch.toNat + 1 ∣ lines := by
  constructor
  · intro hzero
    have hdvd := h.dvd
    rw [hzero] at hdvd
    exact hdvd
  · intro hlines
    have hcounter : latch.toNat + 1 ∣ board.irqCounter.toNat :=
      (Nat.dvd_add_right hlines).mp h.dvd
    have hzero := Nat.eq_zero_of_dvd_of_lt hcounter (Nat.lt_succ_of_le h.counter_le)
    exact UInt8.toNat_inj.mp hzero

end Mmc3

/-! ## The ends of lines -/

namespace System

section
variable {system : System} {board : Mmc3} (h : system.cartridge.board = .mmc3 board)
include h

theorem cartridge_hblank (line : Nat) : (system.hblank line).cartridge =
    { system.cartridge with
      board := .mmc3 (board.hblank line system.slot).1
      irq := (board.hblank line system.slot).2.irq } := by
  obtain ⟨hardware, ⟨image, _, pristine, save, irq⟩, journal⟩ := system
  cases h
  rfl

theorem cartridge_write (addr : UInt16) (data : UInt8) (hspace : prgSpace ≤ addr) :
    (system.write addr data).cartridge =
      { system.cartridge with
        board := .mmc3 (board.write system.cartridge.image addr data system.slot).1
        irq := (board.write system.cartridge.image addr data system.slot).2.irq } := by
  obtain ⟨hardware, ⟨image, _, pristine, save, irq⟩, journal⟩ := system
  cases h
  unfold write
  dsimp only
  rw [if_pos hspace]
  rfl

end

/-- The cartridge has an MMC3 that has counted a number of lines, and its line is low. -/
def Armed (system : System) (latch : UInt8) (lines : Nat) : Prop :=
  ∃ board, system.cartridge.board = .mmc3 board ∧ board.Counting latch lines ∧
    system.cartridge.irq = false

theorem armed_acknowledge {system : System} {board : Mmc3}
    (h : system.cartridge.board = .mmc3 board) (data : UInt8 × UInt8) {latch : UInt8} {lines : Nat}
    (hcounting : Mmc3.Counting { board with irqEnabled := true } latch lines) :
    (system.acknowledge data).Armed latch lines := by
  have hoff := cartridge_write h 0xE000 data.1 (by decide)
  have hon := cartridge_write (congrArg Cartridge.board hoff) 0xE001 data.2 (by decide)
  refine ⟨{ board with irqEnabled := true }, congrArg Cartridge.board hon, hcounting, ?_⟩
  exact (congrArg Cartridge.irq hon).trans (congrArg Cartridge.irq hoff)

theorem armed_startCounter {system : System} {board : Mmc3}
    (h : system.cartridge.board = .mmc3 board) (latch reload : UInt8) (data : UInt8 × UInt8) :
    (system.startCounter latch reload data).Armed latch 0 := by
  have hlatch := cartridge_write h 0xC000 latch (by decide)
  have hreload := cartridge_write (congrArg Cartridge.board hlatch) 0xC001 reload (by decide)
  refine armed_acknowledge (congrArg Cartridge.board hreload) data ?_
  exact ⟨rfl, rfl, Nat.zero_le _, Nat.dvd_zero _, fun _ => rfl⟩

/-- What the end of a line does. -/
theorem armed_hblank {hblank : Hblank} {latch : UInt8} {lines : Nat}
    (h : hblank.before.Armed latch lines) :
    (∃ board, hblank.after.cartridge.board = .mmc3 board ∧
      board.Counting latch (lines + hblank.counted.toNat)) ∧
    (hblank.after.cartridge.irq = true ↔
      hblank.counted = true ∧ latch.toNat + 1 ∣ lines + 1) := by
  obtain ⟨board, hboard, hcounting, hlow⟩ := h
  have hafter := cartridge_hblank hboard hblank.line
  have hhook : board.hblank hblank.line hblank.before.slot =
      if hblank.counted then (board.countLine,
        if board.countLine.irqCounter = 0 && board.countLine.irqEnabled
        then hblank.before.slot.setIrq true else hblank.before.slot)
      else (board, hblank.before.slot) := rfl
  rw [hhook] at hafter
  cases hcounted : hblank.counted with
  | false =>
    rw [hcounted] at hafter
    refine ⟨⟨board, congrArg Cartridge.board hafter, hcounting⟩, ?_⟩
    have hirq : hblank.after.cartridge.irq = false := (congrArg Cartridge.irq hafter).trans hlow
    simp [hirq]
  | true =>
    rw [hcounted] at hafter
    have hnext := hcounting.countLine
    refine ⟨⟨board.countLine, congrArg Cartridge.board hafter, hnext⟩, ?_⟩
    have hirq : hblank.after.cartridge.irq = (if board.countLine.irqCounter = 0 &&
        board.countLine.irqEnabled then hblank.before.slot.setIrq true
        else hblank.before.slot).irq := congrArg Cartridge.irq hafter
    rw [hirq, ← hnext.counter_eq_zero]
    by_cases hzero : board.countLine.irqCounter = 0
    · rw [if_pos (by simp [hzero, hnext.enabled])]
      exact ⟨fun _ => ⟨rfl, hzero⟩, fun _ => rfl⟩
    · rw [if_neg (by simp [hzero])]
      have hlow' : hblank.before.slot.irq = false := hlow
      simp [hlow', hzero]

theorem countP_take_cons (hblank : Hblank) (rest : List Hblank) (i : Nat) :
    ((hblank :: rest).take (i + 1)).countP Hblank.counted =
      hblank.counted.toNat + (rest.take i).countP Hblank.counted := by
  rw [List.take_succ_cons, List.countP_cons, Nat.add_comm]
  cases hblank.counted <;> rfl

/-- Every IRQ is answered, so the line is low again when the next line ends. -/
theorem hblanks_armed {system : System} {latch : UInt8} {lines : Nat}
    (h : system.Armed latch lines) (ends : List LineEnd) :
    ∀ i (hi : i < (system.hblanks ends).length),
      (system.hblanks ends)[i].before.cartridge.irq = false ∧
      ((system.hblanks ends)[i].after.cartridge.irq = true ↔
        (system.hblanks ends)[i].counted = true ∧ latch.toNat + 1 ∣
          lines + ((system.hblanks ends).take (i + 1)).countP Hblank.counted) := by
  induction ends generalizing system lines with
  | nil => exact fun i hi => absurd hi (Nat.not_lt_zero i)
  | cons lineEnd ends ih =>
    let hblank : Hblank :=
      ⟨{ system with hardware := lineEnd.between system.hardware }, lineEnd.line⟩
    let answered :=
      if hblank.after.cartridge.irq then hblank.after.acknowledge lineEnd.data else hblank.after
    have hbefore : hblank.before.Armed latch lines := h
    obtain ⟨⟨board, hboard, hcounting⟩, hirq⟩ := armed_hblank hbefore
    have hanswered : answered.Armed latch (lines + hblank.counted.toNat) := by
      dsimp only [answered]
      split
      · refine armed_acknowledge hboard lineEnd.data ?_
        rw [← hcounting.enabled]
        exact hcounting
      · next hlow => exact ⟨board, hboard, hcounting, Bool.eq_false_iff.mpr hlow⟩
    have hcons : system.hblanks (lineEnd :: ends) = hblank :: answered.hblanks ends := rfl
    simp only [hcons]
    intro i hi
    cases i with
    | zero =>
      obtain ⟨_, _, _, hlow⟩ := hbefore
      refine ⟨hlow, hirq.trans (and_congr_right fun hcounted => ?_)⟩
      rw [countP_take_cons, hcounted]
      rfl
    | succ i =>
      have hi' : i < (answered.hblanks ends).length := Nat.lt_of_succ_lt_succ hi
      obtain ⟨hlow, hraised⟩ := ih hanswered i hi'
      refine ⟨hlow, hraised.trans ?_⟩
      rw [countP_take_cons, ← Nat.add_assoc]
      rfl

end System

/-! ## The line and the enable bit -/

namespace Mmc3

theorem applyBanks_irq (board : Mmc3) (image : Image) (slot : Slot) :
    (board.applyBanks image slot).irq = slot.irq := by
  unfold applyBanks applyChr applyPrg
  dsimp only
  simp only [Slot.loadChr_irq, Slot.mapPrg_irq]

/-- The line is high only while IRQs are enabled. -/
def Allowed (result : Mmc3 × Slot) : Prop := result.2.irq = true → result.1.irqEnabled = true

theorem allowed_init (board : Mmc3) (image : Image) (kind : ResetKind) {slot : Slot}
    (h : slot.irq = false) : Allowed (board.init image kind slot) := by
  intro hhigh
  have hsame : (board.init image kind slot).2.irq = slot.irq := by
    cases kind <;> exact applyBanks_irq _ image _
  rw [hsame, h] at hhigh
  cases hhigh

theorem allowed_write {board : Mmc3} {slot : Slot} (h : Allowed (board, slot)) (image : Image)
    (addr : UInt16) (data : UInt8) : Allowed (board.write image addr data slot) := by
  unfold write
  split
  · intro hhigh
    exact h ((applyBanks_irq _ image slot).symm.trans hhigh)
  · intro hhigh
    exact h ((applyBanks_irq _ image slot).symm.trans hhigh)
  · split
    · exact h
    · exact h
  · exact h
  · exact h
  · exact h
  · exact fun hhigh => nomatch hhigh
  · exact fun _ => rfl

theorem allowed_hblank {board : Mmc3} {slot : Slot} (h : Allowed (board, slot)) (line : Nat) :
    Allowed (board.hblank line slot) := by
  have henabled : board.countLine.irqEnabled = board.irqEnabled := by
    unfold countLine
    split <;> rfl
  unfold hblank
  split
  · intro hhigh
    show board.countLine.irqEnabled = true
    dsimp only at hhigh
    split at hhigh
    · next hdue => exact (Bool.and_eq_true_iff.mp hdue).2
    · exact henabled.trans (h hhigh)
  · exact h

end Mmc3

namespace System

/-- The cartridge has an MMC3 and had one when it was built, and the line is high only while IRQs
    are enabled. -/
structure IrqAllowed (system : System) : Prop where
  pristine : ∃ initial, system.cartridge.pristine = .mmc3 initial
  allowed : ∃ board, system.cartridge.board = .mmc3 board ∧
    (system.cartridge.irq = true → board.irqEnabled = true)

/-- An MMC3 that acts as it may leaves the line as it may be. -/
theorem allowed_onBoard (system : System) {act : Board → Image → Slot → Board × Slot}
    {result : Mmc3 × Slot}
    (hact : act system.cartridge.board system.cartridge.image system.slot = Board.wrap .mmc3 result)
    (hallowed : Mmc3.Allowed result) :
    ∃ board, (system.onBoard act).cartridge.board = .mmc3 board ∧
      ((system.onBoard act).cartridge.irq = true → board.irqEnabled = true) := by
  have hboard : (system.onBoard act).cartridge.board =
      (act system.cartridge.board system.cartridge.image system.slot).1 := rfl
  have hirq : (system.onBoard act).cartridge.irq =
      (act system.cartridge.board system.cartridge.image system.slot).2.irq := rfl
  rw [hact] at hboard hirq
  exact ⟨result.1, hboard, fun hhigh => hallowed (hirq ▸ hhigh)⟩

theorem IrqAllowed.initBoard {system : System} (h : system.IrqAllowed) (kind : ResetKind) :
    (system.initBoard kind).IrqAllowed := by
  obtain ⟨⟨initial, hpristine⟩, -⟩ := h
  refine ⟨⟨initial, hpristine⟩, ?_⟩
  have hinit : Mmc3.Allowed (initial.init system.cartridge.image kind system.startSlot) :=
    Mmc3.allowed_init initial _ kind rfl
  refine allowed_onBoard _ ?_ hinit
  show system.cartridge.pristine.init _ kind _ = _
  rw [hpristine]
  rfl

theorem IrqAllowed.step {a b : System} (step : Step a b) (h : a.IrqAllowed) : b.IrqAllowed := by
  have ⟨⟨initial, hpristine⟩, board, hboard, hirq⟩ := h
  have hallowed : Mmc3.Allowed (board, a.slot) := hirq
  cases step with
  | ppu | apu | io | writeWorkRam | writeSave => exact ⟨⟨initial, hpristine⟩, board, hboard, hirq⟩
  | writeBoard addr data =>
    refine ⟨⟨initial, hpristine⟩, ?_⟩
    refine allowed_onBoard a ?_ (Mmc3.allowed_write hallowed a.cartridge.image addr data)
    rw [hboard]
    rfl
  | hblank line =>
    refine ⟨⟨initial, hpristine⟩, ?_⟩
    refine allowed_onBoard a ?_ (Mmc3.allowed_hblank hallowed line)
    rw [hboard]
    rfl
  | preLine | vblank =>
    refine ⟨⟨initial, hpristine⟩, ?_⟩
    refine allowed_onBoard a ?_ hallowed
    rw [hboard]
    rfl
  | resetBoard => exact h.initBoard .soft

theorem IrqAllowed.foldl {system : System} (h : system.IrqAllowed) (happenings : List Happening) :
    (happenings.foldl undergo system).IrqAllowed := by
  induction happenings generalizing system with
  | nil => exact h
  | cons happening happenings ih =>
    refine ih ?_
    cases happening with
    | event event => exact (run_happen system event).keeps (fun step => IrqAllowed.step step) h
    | start kind => exact h.initBoard kind

/-- A started counter raises the IRQ line at the counted lines whose number is a multiple of the
    latch and one, and at no other, if each IRQ is answered before the next line ends. And whatever
    happens to a cartridge from the time it is built, its line is high only while IRQs are
    enabled. -/
theorem irq_once_a_period (system : System) {board : Mmc3}
    (h : system.cartridge.board = .mmc3 board) (latch reload : UInt8) (data : UInt8 × UInt8)
    (ends : List LineEnd) :
    (let hblanks := (system.startCounter latch reload data).hblanks ends
      ∀ i (hi : i < hblanks.length), hblanks[i].raises = true ↔
        hblanks[i].counted = true ∧
          ∃ k ≥ 1, (hblanks.take (i + 1)).countP Hblank.counted = k * (latch.toNat + 1)) ∧
    (∀ (hardware : Hardware) (image : Image) (initial : Mmc3) (journal : Journal)
        (happenings : List Happening),
      let built : System := ⟨hardware, .ofImage image (.mmc3 initial), journal⟩
      let last := happenings.foldl undergo built
      ∃ board', last.cartridge.board = .mmc3 board' ∧
        (last.cartridge.irq = true → board'.irqEnabled = true)) := by
  constructor
  · intro hblanks i hi
    obtain ⟨hlow, hraised⟩ := hblanks_armed (armed_startCounter h latch reload data) ends i hi
    have hraises : hblanks[i].raises = hblanks[i].after.cartridge.irq := by
      unfold Hblank.raises
      rw [hlow]
      rfl
    rw [hraises, hraised, Nat.zero_add]
    refine and_congr_right fun hcounted => ⟨fun ⟨k, hk⟩ => ⟨k, ?_, ?_⟩, fun ⟨k, _, hk⟩ => ⟨k, ?_⟩⟩
    · have hmem : hblanks[i] ∈ hblanks.take (i + 1) :=
        List.mem_take_iff_getElem.mpr ⟨i, Nat.lt_min.mpr ⟨Nat.lt_succ_self i, hi⟩, rfl⟩
      have hpos : 0 < (hblanks.take (i + 1)).countP Hblank.counted :=
        List.countP_pos_iff.mpr ⟨_, hmem, hcounted⟩
      exact Nat.pos_of_mul_pos_left (hk ▸ hpos)
    · rw [Nat.mul_comm]
      exact hk
    · rw [Nat.mul_comm]
      exact hk
  · intro hardware image initial journal happenings built last
    have hbuilt : built.IrqAllowed := ⟨⟨initial, rfl⟩, initial, rfl, fun hhigh => nomatch hhigh⟩
    exact (hbuilt.foldl happenings).allowed

/-- With a latch of one, the second of two lines raises the IRQ line. -/
theorem irq_once_a_period_second_line :
    let system : System := ⟨{}, .ofImage default (.mmc3 {}), #[]⟩
    let light (hardware : Hardware) : Hardware :=
      { hardware with ppu := { hardware.ppu with mask := { background := true } } }
    let lit : LineEnd := ⟨light, 0, (0, 0)⟩
    ((system.startCounter 1 0 (0, 0)).hblanks [lit, lit]).map Hblank.raises = [false, true] := by
  intro system light lit
  have hraises := (irq_once_a_period system rfl 1 0 (0, 0) [lit, lit]).1
  obtain ⟨first, second, hlines, hfirst, hsecond⟩ : ∃ first second,
      (system.startCounter 1 0 (0, 0)).hblanks [lit, lit] = [first, second] ∧
        first.counted = true ∧ second.counted = true := ⟨_, _, rfl, rfl, rfl⟩
  rw [hlines] at hraises ⊢
  have hlow : first.raises = false := by
    rw [Bool.eq_false_iff]
    intro hraised
    obtain ⟨-, k, -, hcount⟩ := (hraises 0 Nat.zero_lt_two).mp hraised
    have hone : [first].countP Hblank.counted = 1 := by simp [hfirst]
    have htwo : [first].countP Hblank.counted = k * 2 := hcount
    omega
  have hhigh : second.raises = true := by
    refine (hraises 1 Nat.one_lt_two).mpr ⟨hsecond, 1, Nat.le_refl 1, ?_⟩
    show [first, second].countP Hblank.counted = 2
    simp [hfirst, hsecond]
  show [first.raises, second.raises] = [false, true]
  rw [hlow, hhigh]

end System

end Nes
