/-
  What a read of a pad gives, told by everything that was done to the pad before.

  Four fields stand for a history of any length. `strobe_after` and `held_after` say what two of
  them are. The other two count from the last fall of the strobe on (`sinceFall`): the buttons
  seen are the union of the masks since then (`seen_after`), and while the strobe is low the
  number of bits shifted out is that of the reads since then, as far as eight (`shifted_after`).
  Each is proved by a look at one more call.

  So the `k`-th read since the fall gives bit `k` of the last mask and of all masks since the
  fall, a read behind the eighth gives a one however many came before, and a held strobe gives
  the first button (`read_after`). `read_is_told` says it of every read in any sequence of calls.
-/
import Mathlib.Data.Nat.Find
import Nes.Proofs.Pads

namespace Nes

namespace Controller

/-! ## A history -/

/-- Whether a call is a read. -/
def Call.isRead : Call → Bool
  | read => true
  | setButtons _ | writeStrobe _ => false

/-- The masks that are handed over, the first one first. -/
def masks (calls : List Call) : List UInt8 :=
  calls.filterMap fun
    | .setButtons mask => some mask
    | _ => none

/-- How many of the calls are reads. -/
def reads (calls : List Call) : Nat := calls.countP Call.isRead

/-- The strobe falls in the last of the calls. -/
def endsInFall (calls : List Call) : Bool :=
  match calls.getLast? with
  | some (.writeStrobe data) => line calls.dropLast && !bit data 0
  | _ => false

/-- How many calls there were when the strobe fell for the last time; none if it never fell. -/
def lastFall (calls : List Call) : Nat :=
  Nat.findGreatest (fun n => endsInFall (calls.take n) = true) calls.length

/-- The calls since the strobe fell last, or since the pad was new. -/
def sinceFall (calls : List Call) : List Call := calls.drop (lastFall calls)

/-- The buttons that reads show after calls: those of the last mask, and those of all masks since
    the strobe fell last. -/
def shown (calls : List Call) : UInt8 :=
  lastMask calls ||| (masks (sinceFall calls)).foldl (· ||| ·) 0

/-- The bit that a read gives after calls. A held strobe gives the first button. Otherwise the
    reads since the strobe fell give one button each, and those behind the eighth give ones. -/
def told (calls : List Call) : Bool :=
  let k := reads (sinceFall calls)
  if line calls then bit (shown calls) 0 else if k < 8 then bit (shown calls) k else true

/-- The bytes that the reads among some calls give, one after the other. -/
def answers (pad : Controller) : List Call → List UInt8
  | [] => []
  | .read :: calls => pad.read.1 :: answers pad.read.2 calls
  | .setButtons mask :: calls => answers (pad.setButtons mask) calls
  | .writeStrobe data :: calls => answers (pad.writeStrobe data) calls

/-! ## One more call -/

theorem masks_append (calls calls' : List Call) :
    masks (calls ++ calls') = masks calls ++ masks calls' := List.filterMap_append

theorem reads_append (calls calls' : List Call) :
    reads (calls ++ calls') = reads calls + reads calls' := List.countP_append

theorem endsInFall_concat (calls : List Call) (call : Call) :
    endsInFall (calls ++ [call]) = match call with
      | .writeStrobe data => line calls && !bit data 0
      | _ => false := by
  unfold endsInFall
  rw [List.getLast?_concat, List.dropLast_concat]
  cases call <;> rfl

/-- The calls before the last one fell when they did. -/
theorem lastFall_concat (calls : List Call) (call : Call) :
    lastFall (calls ++ [call]) =
      if endsInFall (calls ++ [call]) then calls.length + 1 else lastFall calls := by
  have hall : (calls ++ [call]).take (calls.length + 1) = calls ++ [call] :=
    List.take_of_length_le (by simp)
  have hearlier : Nat.findGreatest (fun n => endsInFall ((calls ++ [call]).take n) = true)
      calls.length = lastFall calls := by
    obtain ⟨hle, hfell, hlast⟩ := Nat.findGreatest_eq_iff.mp (rfl : lastFall calls = lastFall calls)
    have htake {n : Nat} (hn : n ≤ calls.length) : (calls ++ [call]).take n = calls.take n :=
      List.take_append_of_le_length hn
    refine Nat.findGreatest_eq_iff.mpr ⟨hle, fun hne => ?_, fun n hn hn' => ?_⟩
    · rw [htake hle]
      exact hfell hne
    · rw [htake hn']
      exact hlast hn hn'
  have hlength : (calls ++ [call]).length = calls.length + 1 := by simp
  unfold lastFall at hearlier ⊢
  rw [hlength, Nat.findGreatest_succ, hall, hearlier]

theorem lastFall_le (calls : List Call) : lastFall calls ≤ calls.length := Nat.findGreatest_le _

/-- A fall starts the history over, and any other call goes on with it. -/
theorem sinceFall_concat (calls : List Call) (call : Call) :
    sinceFall (calls ++ [call]) =
      if endsInFall (calls ++ [call]) then [] else sinceFall calls ++ [call] := by
  have hle := lastFall_le calls
  unfold sinceFall
  rw [lastFall_concat]
  split
  · exact List.drop_of_length_le (by simp)
  · exact List.drop_append_of_le_length hle

/-! ## What the fields stand for -/

/-- A pad has seen the masks since the strobe fell last. -/
theorem seen_after (calls : List Call) :
    (after calls).seen = (masks (sinceFall calls)).foldl (· ||| ·) 0 := by
  induction calls using List.reverseRecOn with
  | nil => rfl
  | append_singleton calls call ih =>
    rw [after_concat, sinceFall_concat, endsInFall_concat]
    cases call with
    | setButtons mask =>
      have hseen : (Call.run (after calls) (.setButtons mask)).seen = (after calls).seen ||| mask :=
        rfl
      rw [hseen, ih, if_neg Bool.false_ne_true, masks_append, List.foldl_append]
      rfl
    | writeStrobe data =>
      unfold Call.run writeStrobe
      dsimp only
      rw [strobe_after]
      split
      · rfl
      · rw [masks_append, List.foldl_append]
        exact ih
    | read =>
      rw [if_neg Bool.false_ne_true, masks_append, List.foldl_append]
      exact ih

/-- While the strobe is low, a pad has shifted out one bit for each read since the strobe fell, as
    far as there are buttons. -/
theorem shifted_after {calls : List Call} (low : line calls = false) :
    (after calls).shifted = min (reads (sinceFall calls)) 8 := by
  induction calls using List.reverseRecOn with
  | nil => rfl
  | append_singleton calls call ih =>
    rw [line_concat] at low
    rw [after_concat, sinceFall_concat, endsInFall_concat]
    cases call with
    | setButtons mask =>
      rw [if_neg Bool.false_ne_true, reads_append]
      exact ih low
    | writeStrobe data =>
      have hdata : bit data 0 = false := low
      unfold Call.run writeStrobe
      dsimp only
      simp only [strobe_after, hdata]
      -- a strobe that was high falls now, and one that was low stays where it was
      cases hline : line calls with
      | true => rfl
      | false =>
        have hreads := reads_append (sinceFall calls) [.writeStrobe data]
        exact (ih hline).trans (congrArg (min · 8) hreads.symm)
    | read =>
      have hstrobe : (after calls).strobe = false := (strobe_after calls).trans low
      have hshifted : (Call.run (after calls) .read).shifted =
          min ((if (after calls).strobe then 0 else (after calls).shifted) + 1) 8 := rfl
      have hone : reads [.read] = 1 := rfl
      rw [hshifted, hstrobe, if_neg Bool.false_ne_true, ih low, if_neg Bool.false_ne_true,
        reads_append, hone]
      omega

/-! ## Reads -/

/-- What a read gives after calls. -/
theorem read_after (calls : List Call) :
    (after calls).read.1 = 0x40 + if told calls then 1 else 0 := by
  have hbyte (pressed : Bool) :
      (if pressed then 0x41 else 0x40 : UInt8) = 0x40 + if pressed then 1 else 0 := by
    cases pressed <;> rfl
  have hbuttons : (after calls).held ||| (after calls).seen = shown calls := by
    rw [held_after, seen_after]
    rfl
  unfold read told
  dsimp only
  rw [hbyte, hbuttons, strobe_after]
  cases hline : line calls with
  | true => rfl
  | false =>
    simp only [Bool.false_eq_true, if_false]
    rw [shifted_after hline]
    by_cases hreads : reads (sinceFall calls) < 8
    · have hmin : min (reads (sinceFall calls)) 8 = reads (sinceFall calls) := by omega
      rw [hmin]
    · have hmin : ¬ min (reads (sinceFall calls)) 8 < 8 := by omega
      rw [if_neg hmin, if_neg hreads]

theorem answers_append (pad : Controller) (calls calls' : List Call) :
    pad.answers (calls ++ calls') =
      pad.answers calls ++ (calls.foldl Call.run pad).answers calls' := by
  induction calls generalizing pad with
  | nil => rfl
  | cons call calls ih =>
    cases call with
    | setButtons mask => exact ih (pad.setButtons mask)
    | writeStrobe data => exact ih (pad.writeStrobe data)
    | read => exact congrArg (pad.read.1 :: ·) (ih pad.read.2)

/-- Every read has an answer. -/
theorem length_answers (pad : Controller) (calls : List Call) :
    (pad.answers calls).length = reads calls := by
  induction calls generalizing pad with
  | nil => rfl
  | cons call calls ih =>
    unfold reads
    rw [List.countP_cons]
    cases call with
    | setButtons mask => exact ih (pad.setButtons mask)
    | writeStrobe data => exact ih (pad.writeStrobe data)
    | read => exact congrArg Nat.succ (ih pad.read.2)

/-- Whatever is done to a new pad, each of its reads gives the bit that the calls before it tell,
    under the lines that float high. -/
theorem read_is_told (before later : List Call) :
    (answers {} (before ++ .read :: later))[reads before]? =
      some (0x40 + if told before then 1 else 0) := by
  rw [answers_append, ← length_answers {} before, List.getElem?_append_right (Nat.le_refl _),
    Nat.sub_self]
  exact congrArg some (read_after before)

/-- A press that is over shows until the strobe falls, the mask changes in the midst of the reads,
    and behind the eighth of them come ones. -/
example :
    answers {} ([.setButtons 0x01, .setButtons 0x04, .read, .writeStrobe 1, .read, .writeStrobe 0,
      .read, .setButtons 0x80] ++ List.replicate 9 .read) =
      [0x41, 0x41, 0x40, 0x40, 0x40, 0x40, 0x40, 0x40, 0x40, 0x41, 0x41, 0x41] := by
  decide

end Controller
end Nes
