/-
  What a poll of a pad reports.

  A poll raises the strobe, lets it fall and shifts out eight bits. `DownSince` says of a sequence
  of calls that a button was down in one of the masks handed over since the strobe fell last.

  A pad keeps these presses (`bit_seen_after`), and a read before the next fall shows them. But it
  forgets them at the fall, and the eight reads of a poll come after it: a poll reports the buttons
  of the last mask and no others (`reports_iff`). So a press that is over when the poll comes is
  missed (`missed_iff_released`).
-/
import Mathlib.Data.List.Induction
import Nes.Controller

namespace Nes

namespace Controller

/-! ## Calls -/

/-- Something that is done to a pad. -/
inductive Call
  | setButtons (mask : UInt8)
  | writeStrobe (data : UInt8)
  | read

/-- The pad after a call. -/
def Call.run (pad : Controller) : Call → Controller
  | setButtons mask => pad.setButtons mask
  | writeStrobe data => pad.writeStrobe data
  | read => pad.read.2

/-- A new pad after calls. -/
def after (calls : List Call) : Controller := calls.foldl Call.run {}

theorem after_concat (calls : List Call) (call : Call) :
    after (calls ++ [call]) = call.run (after calls) := by
  unfold after
  rw [List.foldl_append]
  rfl

/-- The level of the strobe after calls: what was written last, and low at first. -/
def line (calls : List Call) : Bool :=
  (calls.filterMap fun
    | .writeStrobe data => some (bit data 0)
    | _ => none).getLast?.getD false

/-- The buttons after calls: the mask that was handed over last, and none at first. -/
def lastMask (calls : List Call) : UInt8 :=
  (calls.filterMap fun
    | .setButtons mask => some mask
    | _ => none).getLast?.getD 0

/-- The strobe falls in a call that follows others. -/
def Falls (before : List Call) (call : Call) : Prop :=
  line before = true ∧ ∃ data, call = .writeStrobe data ∧ bit data 0 = false

/-- A button was down in a mask since the strobe fell last. -/
def DownSince (calls : List Call) (button : Button) : Prop :=
  ∃ earlier mask later, calls = earlier ++ .setButtons mask :: later ∧
    bit mask button.index = true ∧
    ∀ between call rest, later = between ++ call :: rest →
      ¬Falls (earlier ++ .setButtons mask :: between) call

/-- The first `count` bytes that are read. -/
def readOut (pad : Controller) : (count : Nat) → List UInt8
  | 0 => []
  | count + 1 => pad.read.1 :: readOut pad.read.2 count

/-- The bytes of a poll. -/
def poll (pad : Controller) : List UInt8 := ((pad.writeStrobe 1).writeStrobe 0).readOut 8

/-- A poll reports a button as pressed. -/
def Reports (pad : Controller) (button : Button) : Prop :=
  (pad.poll[button.index]?.map fun answer => bit answer 0) = some true

instance (pad : Controller) (button : Button) : Decidable (pad.Reports button) :=
  inferInstanceAs (Decidable (_ = _))

/-! ## One more call -/

variable {calls : List Call} {call : Call} {button : Button}

theorem line_concat (calls : List Call) (call : Call) :
    line (calls ++ [call]) = match call with
      | .writeStrobe data => bit data 0
      | _ => line calls := by
  unfold line
  rw [List.filterMap_append]
  cases call <;> simp

theorem lastMask_concat (calls : List Call) (call : Call) :
    lastMask (calls ++ [call]) = match call with
      | .setButtons mask => mask
      | _ => lastMask calls := by
  unfold lastMask
  rw [List.filterMap_append]
  cases call <;> simp

/-- A button is down since the last fall if the call says so, or it was and the strobe does not
    fall. -/
theorem downSince_concat (calls : List Call) (call : Call) (button : Button) :
    DownSince (calls ++ [call]) button ↔
      (∃ mask, call = .setButtons mask ∧ bit mask button.index = true) ∨
        DownSince calls button ∧ ¬Falls calls call := by
  constructor
  · rintro ⟨earlier, mask, later, hcalls, hdown, hkept⟩
    induction later using List.reverseRecOn with
    | nil =>
      have hlast := List.append_inj' hcalls rfl
      exact .inl ⟨mask, (List.cons.inj hlast.2).1, hdown⟩
    | append_singleton later last _ =>
      rw [← List.cons_append, ← List.append_assoc] at hcalls
      obtain ⟨rfl, hlast⟩ := List.append_inj' hcalls rfl
      obtain rfl := (List.cons.inj hlast).1
      refine .inr ⟨⟨earlier, mask, later, rfl, hdown, ?_⟩, hkept later call [] rfl⟩
      rintro between other rest rfl
      exact hkept between other (rest ++ [call]) (by simp)
  · rintro (⟨mask, rfl, hdown⟩ | ⟨⟨earlier, mask, later, rfl, hdown, hkept⟩, hstays⟩)
    · exact ⟨calls, mask, [], rfl, hdown, fun between call rest h => by simp at h⟩
    · refine ⟨earlier, mask, later ++ [call], by simp, hdown, ?_⟩
      intro between other rest hlater
      rcases List.eq_nil_or_concat rest with rfl | ⟨front, last, rfl⟩
      · obtain ⟨rfl, hlast⟩ := List.append_inj' hlater rfl
        rwa [← (List.cons.inj hlast).1]
      · rw [List.concat_eq_append, ← List.cons_append, ← List.append_assoc] at hlater
        obtain ⟨hfront, _⟩ := List.append_inj' hlater rfl
        exact hkept between other front hfront

/-! ## What a pad keeps -/

theorem bit_or (a b : UInt8) (i : Nat) : bit (a ||| b) i = (bit a i || bit b i) := by
  unfold bit
  rw [UInt8.toNat_or, Nat.testBit_or]

theorem bit_zero (i : Nat) : bit 0 i = false := Nat.zero_testBit i

theorem strobe_after (calls : List Call) : (after calls).strobe = line calls := by
  induction calls using List.reverseRecOn with
  | nil => rfl
  | append_singleton calls call ih =>
    rw [after_concat, line_concat]
    cases call with
    | setButtons mask => exact ih
    | writeStrobe data =>
      unfold Call.run writeStrobe
      dsimp only
      split <;> rfl
    | read => exact ih

theorem held_after (calls : List Call) : (after calls).held = lastMask calls := by
  induction calls using List.reverseRecOn with
  | nil => rfl
  | append_singleton calls call ih =>
    rw [after_concat, lastMask_concat]
    cases call with
    | setButtons mask => rfl
    | writeStrobe data =>
      unfold Call.run writeStrobe
      dsimp only
      split <;> exact ih
    | read => exact ih

/-- A pad keeps the presses since the strobe fell last. -/
theorem bit_seen_after (calls : List Call) (button : Button) :
    bit (after calls).seen button.index = true ↔ DownSince calls button := by
  induction calls using List.reverseRecOn with
  | nil =>
    refine iff_of_false (Bool.eq_false_iff.mp (bit_zero _)) ?_
    rintro ⟨earlier, mask, later, hcalls, _⟩
    simp at hcalls
  | append_singleton calls call ih =>
    rw [after_concat, downSince_concat, ← ih]
    cases call with
    | setButtons mask =>
      have hkept : ¬Falls calls (.setButtons mask) := by
        rintro ⟨_, data, hcall, _⟩
        cases hcall
      have hseen : (Call.run (after calls) (.setButtons mask)).seen = (after calls).seen ||| mask :=
        rfl
      rw [hseen, bit_or, Bool.or_eq_true, or_comm]
      simp [hkept]
    | writeStrobe data =>
      unfold Call.run writeStrobe
      dsimp only
      split
      · next hfalls =>
        rw [strobe_after, Bool.and_eq_true, Bool.not_eq_true'] at hfalls
        have hfalls : Falls calls (.writeStrobe data) := ⟨hfalls.1, data, rfl, hfalls.2⟩
        simp [hfalls, bit_zero]
      · next hstays =>
        have hstays : ¬Falls calls (.writeStrobe data) := by
          rintro ⟨hhigh, other, hcall, hlow⟩
          cases hcall
          rw [strobe_after, hhigh, hlow] at hstays
          exact hstays rfl
        simp [hstays]
    | read =>
      have hkept : ¬Falls calls .read := by
        rintro ⟨_, data, hcall, _⟩
        cases hcall
      have hseen : (Call.run (after calls) .read).seen = (after calls).seen := rfl
      rw [hseen]
      simp [hkept]

/-! ## Polls -/

/-- A read with the strobe low, before the eighth button is out. -/
theorem read_eq {pad : Controller} (low : pad.strobe = false) (inside : pad.shifted < 8) :
    pad.read =
      (if bit (pad.held ||| pad.seen) pad.shifted then 0x41 else 0x40,
        { pad with shifted := pad.shifted + 1 }) := by
  have hnext : min (pad.shifted + 1) 8 = pad.shifted + 1 := Nat.min_eq_left inside
  unfold read
  simp only [low, Bool.false_eq_true, if_false, inside, if_true, hnext]

/-- With the strobe low, the bits of the buttons that are held or kept come one after the other. -/
theorem getElem?_readOut {pad : Controller} (low : pad.strobe = false) {count i : Nat}
    (hi : i < count) (hcount : pad.shifted + count ≤ 8) :
    (pad.readOut count)[i]? =
      some (if bit (pad.held ||| pad.seen) (pad.shifted + i) then 0x41 else 0x40) := by
  induction count generalizing pad i with
  | zero => exact absurd hi (Nat.not_lt_zero i)
  | succ count ih =>
    unfold readOut
    rw [read_eq low (by omega)]
    cases i with
    | zero => rfl
    | succ i =>
      have hlow : { pad with shifted := pad.shifted + 1 }.strobe = false := low
      have hrest := ih hlow (Nat.lt_of_succ_lt_succ hi) (by dsimp only; omega)
      rw [List.getElem?_cons_succ, hrest]
      dsimp only
      rw [Nat.add_assoc, Nat.add_comm 1]

/-- A poll starts with a fall of the strobe, and what was kept is gone. -/
theorem strobed_eq (pad : Controller) :
    (pad.writeStrobe 1).writeStrobe 0 = { pad with strobe := false, seen := 0, shifted := 0 } := by
  have hone : bit 1 0 = true := rfl
  have hzero : bit 0 0 = false := rfl
  unfold writeStrobe
  cases hstrobe : pad.strobe <;> simp [hone, hzero]

theorem index_lt (button : Button) : button.index < 8 := by
  cases button <;> decide

/-- A poll reports the buttons that are held, and no others. -/
theorem reports_iff (pad : Controller) (button : Button) :
    pad.Reports button ↔ bit pad.held button.index = true := by
  have hlow : { pad with strobe := false, seen := 0, shifted := 0 }.strobe = false := rfl
  have hread := getElem?_readOut hlow (index_lt button) (Nat.le_refl 8)
  unfold Reports poll
  rw [strobed_eq, hread, bit_or, bit_zero, Bool.or_false, Nat.zero_add]
  cases bit pad.held button.index <;> decide

/-- The bit of the next read, while the strobe is low. -/
theorem bit_read {pad : Controller} (low : pad.strobe = false) (next : pad.shifted = button.index) :
    bit pad.read.1 0 = bit (pad.held ||| pad.seen) button.index := by
  rw [read_eq low (next ▸ index_lt button), next]
  dsimp only
  cases bit (pad.held ||| pad.seen) button.index <;> decide

/-- The presses since the strobe fell last are shown by the reads before it falls again, and a poll
    forgets them: what was down since then is missed exactly if it is not in the last mask. -/
theorem missed_iff_released (calls : List Call) (button : Button) :
    (DownSince calls button ∧ ¬(after calls).Reports button ↔
      DownSince calls button ∧ bit (lastMask calls) button.index = false) ∧
    (line calls = false → (after calls).shifted = button.index →
      (bit (after calls).read.1 0 = true ↔
        bit (lastMask calls) button.index = true ∨ DownSince calls button)) := by
  constructor
  · rw [reports_iff, held_after, Bool.not_eq_true]
  · intro low next
    rw [← strobe_after] at low
    rw [bit_read low next, bit_or, Bool.or_eq_true, held_after, bit_seen_after]

/-- A button that is down in one frame and up in the next, with no poll in between. -/
def tap (button : Button) : List Call := [.setButtons button.mask, .setButtons 0]

theorem downSince_tap (button : Button) : DownSince (tap button) button := by
  have hmask : bit button.mask button.index = true := by cases button <;> rfl
  refine ⟨[], button.mask, [.setButtons 0], rfl, hmask, ?_⟩
  intro between call rest hlater
  rintro ⟨_, data, rfl, _⟩
  rcases between with _ | ⟨_, _ | ⟨_, _⟩⟩ <;> simp at hlater

/-- After a tap of the first button the next read shows it, and the next poll does not. -/
theorem tap_read_or_missed :
    bit (after (tap .a)).read.1 0 = true ∧ DownSince (tap .a) .a ∧
      ¬(after (tap .a)).Reports .a := by
  have hline : line (tap .a) = false := by decide
  have hnext : (after (tap .a)).shifted = Button.a.index := by decide
  have hlast : bit (lastMask (tap .a)) Button.a.index = false := by decide
  obtain ⟨missed, read⟩ := missed_iff_released (tap .a) .a
  exact ⟨(read hline hnext).mpr (.inr (downSince_tap .a)), missed.mpr ⟨downSince_tap .a, hlast⟩⟩

/-- A tap before the first poll is a press since the last one, and the poll does not report it. -/
theorem tap_missed : ¬∀ calls button, DownSince calls button → (after calls).Reports button := by
  intro reported
  exact absurd (reported (tap .b) .b (downSince_tap .b)) (by decide)

end Controller
end Nes
