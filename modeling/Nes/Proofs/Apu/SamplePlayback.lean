/-
  A delta sample is fetched byte by byte, from its first to its last.

  Model (read this before the theorems). `DeltaSample` is a sample as a program chooses it: the
  bytes written to $4012 and $4013, and the flags of $4010 for the IRQ and for the loop. By these
  alone `asked` gives the address of the n-th fetch, and `finished` tells whether a number of
  fetches is all that there will be. `Dmc.Plays` is the invariant of a channel that has fetched so
  many bytes of a sample since it was switched on.

  `Dmc.Fetches` relates two states of the channel by the bits played and the addresses asked for
  between them. Its steps are one bit, the refill before it and the passing of time
  (`Plays.ready`, `Plays.playBit`, `Plays.setTimer`), and it composes (`Fetches.append`), so bits,
  samples, slices and calls follow by induction. As long as the sample is not over, eight bits
  cost a fetch; the bits of a slice are counted by its timer, which makes at least two fetches in
  each slice at any rate (`plays_sample`).
-/
import Nes.Proofs.Apu.Calls

namespace Nes

/-! ## The sample -/

/-- A sample as a program chooses it. -/
structure DeltaSample where
  /-- The byte written to $4012. -/
  start : UInt8
  /-- The byte written to $4013. -/
  length : UInt8
  irqEnabled : Bool
  looping : Bool

namespace DeltaSample

variable {s : DeltaSample} {count : Nat}

/-- How many bytes it has. -/
def bytes (s : DeltaSample) : Nat := 16 * s.length.toNat + 1

/-- The address of one of its bytes. They start at $C000 or above; past $FFFF comes $8000. -/
def place (s : DeltaSample) (index : Nat) : UInt16 :=
  let addr := 0xC000 + 64 * s.start.toNat + index
  UInt16.ofNat (if addr < 0x10000 then addr else addr - 0x8000)

/-- The address of a fetch, when `count` bytes were fetched before it. -/
def asked (s : DeltaSample) (count : Nat) : UInt16 := s.place (count % s.bytes)

/-- Whether `count` fetches are all: those of the last byte, if the sample does not loop. -/
def finished (s : DeltaSample) (count : Nat) : Bool := !s.looping && count == s.bytes

theorem bytes_pos (s : DeltaSample) : 0 < s.bytes := Nat.succ_pos _

theorem bytes_le (s : DeltaSample) : s.bytes ≤ longestSample := by
  have hlength := s.length.toNat_lt
  unfold bytes longestSample
  omega

theorem finished_eq_true : s.finished count = true ↔ s.looping = false ∧ count = s.bytes := by
  simp [finished]

theorem finished_eq_false : s.finished count = false ↔ s.looping = true ∨ count ≠ s.bytes := by
  unfold finished
  cases s.looping <;> simp

theorem finished_zero (s : DeltaSample) : s.finished 0 = false :=
  finished_eq_false.mpr (.inr (Nat.ne_of_lt s.bytes_pos))

theorem toNat_place {index : Nat} (h : index < s.bytes) :
    (s.place index).toNat = if 0xC000 + 64 * s.start.toNat + index < 0x10000
      then 0xC000 + 64 * s.start.toNat + index else 0x4000 + 64 * s.start.toNat + index := by
  have hstart := s.start.toNat_lt
  have hindex := Nat.lt_of_lt_of_le h s.bytes_le
  unfold longestSample at hindex
  unfold place
  dsimp only
  rw [UInt16.toNat_ofNat']
  split <;> omega

theorem place_zero (s : DeltaSample) : s.place 0 = 0xC000 + s.start.toUInt16 * 64 := by
  have hstart := s.start.toNat_lt
  apply UInt16.toNat_inj.mp
  rw [toNat_place s.bytes_pos, if_pos (by omega)]
  simp only [UInt16.toNat_add, UInt16.toNat_mul, UInt8.toNat_toUInt16, UInt16.reduceToNat]
  omega

/-- The bytes are in places that follow each other. -/
theorem following_place {index : Nat} (h : index + 1 < s.bytes) :
    Dmc.following (s.place index) = s.place (index + 1) := by
  have hstart := s.start.toNat_lt
  have hbytes := s.bytes_le
  unfold longestSample at hbytes
  have hplace := toNat_place (Nat.lt_of_succ_lt h)
  apply UInt16.toNat_inj.mp
  rw [toNat_place h]
  unfold Dmc.following
  split
  · next hend =>
    rw [hend, show (0xFFFF : UInt16).toNat = 0xFFFF from rfl] at hplace
    show 0x8000 = _
    split at hplace <;> split <;> omega
  · next hmore =>
    have hne : (s.place index).toNat ≠ 0xFFFF := fun heq => hmore (UInt16.toNat_inj.mp heq)
    rw [UInt16.toNat_add, show (1 : UInt16).toNat = 1 from rfl]
    split at hplace <;> split <;> omega

theorem asked_zero (s : DeltaSample) : s.asked 0 = s.place 0 := by
  unfold asked
  rw [Nat.zero_mod]

/-- After the last byte comes the first, if any. -/
theorem succ_mod_last (h : count % s.bytes + 1 = s.bytes) : (count + 1) % s.bytes = 0 := by
  rw [← Nat.mod_add_mod, h, Nat.mod_self]

theorem succ_mod_more (h : count % s.bytes + 1 < s.bytes) :
    (count + 1) % s.bytes = count % s.bytes + 1 := by
  rw [← Nat.mod_add_mod, Nat.mod_eq_of_lt h]

section Once

variable (hle : s.looping = false → count ≤ s.bytes) (more : s.finished count = false)
include hle more

/-- Without a loop no more fetches are counted than there are bytes. -/
theorem lt_of_once (once : s.looping = false) : count < s.bytes := by
  have hcount := hle once
  have hmore : count ≠ s.bytes := by simpa [once] using finished_eq_false.mp more
  omega

theorem finished_succ_last (h : count % s.bytes + 1 = s.bytes) :
    s.finished (count + 1) = !s.looping := by
  cases hlooping : s.looping with
  | true => exact finished_eq_false.mpr (.inl hlooping)
  | false =>
    rw [Nat.mod_eq_of_lt (lt_of_once hle more hlooping)] at h
    exact finished_eq_true.mpr ⟨hlooping, h⟩

theorem finished_succ_more (h : count % s.bytes + 1 < s.bytes) :
    s.finished (count + 1) = false := by
  rw [finished_eq_false]
  cases hlooping : s.looping with
  | true => exact .inl rfl
  | false =>
    rw [Nat.mod_eq_of_lt (lt_of_once hle more hlooping)] at h
    exact .inr (Nat.ne_of_lt h)

end Once

end DeltaSample

/-! ## The channel -/

namespace Dmc

/-- The channel has fetched `count` bytes of a sample since it was switched on. -/
structure Plays (d : Dmc) (s : DeltaSample) (count : Nat) : Prop where
  irqEnabled_eq : d.irqEnabled = s.irqEnabled
  looping_eq : d.looping = s.looping
  sampleAddress_eq : d.sampleAddress = s.place 0
  sampleLength_eq : d.sampleLength = s.bytes
  remaining_eq : d.remaining = if s.finished count then 0 else s.bytes - count % s.bytes
  address_eq : s.finished count = false → d.address = s.asked count
  irq_eq : d.irq = (s.irqEnabled && s.finished count)
  count_le : s.looping = false → count ≤ s.bytes
  bitsLeft_le : d.bitsLeft ≤ 8

variable {d : Dmc} {s : DeltaSample} {count : Nat}

theorem Plays.active_eq (h : d.Plays s count) : d.active = !s.finished count := by
  have hmod := Nat.mod_lt count s.bytes_pos
  unfold active
  rw [h.remaining_eq]
  cases s.finished count with
  | true => rfl
  | false => simpa [Nat.sub_pos_iff_lt] using hmod

section Accept

variable (h : d.Plays s count) (more : s.finished count = false)
include h more

theorem Plays.remaining_more : d.remaining = s.bytes - count % s.bytes := by
  rw [h.remaining_eq, more, if_neg (by decide)]

theorem Plays.irq_more : d.irq = false := by
  rw [h.irq_eq, more, Bool.and_false]

variable (value : UInt8)

/-- A byte that is not the last is followed by the next one. -/
theorem Plays.accept_more (hnext : count % s.bytes + 1 < s.bytes) :
    (d.accept value).Plays s (count + 1) := by
  have hremaining := h.remaining_more more
  have hsucc := DeltaSample.succ_mod_more hnext
  have hfinished := DeltaSample.finished_succ_more h.count_le more hnext
  unfold Dmc.accept
  dsimp only
  rw [if_neg (by omega)]
  refine ⟨h.irqEnabled_eq, h.looping_eq, h.sampleAddress_eq, h.sampleLength_eq, ?_, fun _ => ?_, ?_,
    DeltaSample.lt_of_once h.count_le more, Nat.le_refl 8⟩
  · rw [hfinished, if_neg (by decide), hsucc, Nat.sub_add_eq, ← hremaining]
  · have haddress := h.address_eq more
    unfold DeltaSample.asked at haddress ⊢
    dsimp only
    rw [hsucc, haddress]
    exact DeltaSample.following_place hnext
  · rw [hfinished, Bool.and_false]
    exact h.irq_more more

/-- After the last byte a sample that loops starts over. -/
theorem Plays.accept_again (hlast : count % s.bytes + 1 = s.bytes) (loops : s.looping = true) :
    (d.accept value).Plays s (count + 1) := by
  have hremaining := h.remaining_more more
  have hfirst := DeltaSample.succ_mod_last hlast
  have hfinished := DeltaSample.finished_succ_last h.count_le more hlast
  rw [loops, Bool.not_true] at hfinished
  unfold Dmc.accept
  dsimp only
  rw [if_pos (by omega), if_pos (h.looping_eq.trans loops)]
  refine ⟨h.irqEnabled_eq, h.looping_eq, h.sampleAddress_eq, h.sampleLength_eq, ?_, fun _ => ?_, ?_,
    DeltaSample.lt_of_once h.count_le more, Nat.le_refl 8⟩
  · rw [hfinished, if_neg (by decide), hfirst]
    exact h.sampleLength_eq
  · unfold DeltaSample.asked
    rw [hfirst]
    exact h.sampleAddress_eq
  · rw [hfinished, Bool.and_false]
    exact h.irq_more more

/-- After the last byte a sample that does not loop is over, and its IRQ is raised. -/
theorem Plays.accept_end (hlast : count % s.bytes + 1 = s.bytes) (once : s.looping = false) :
    (d.accept value).Plays s (count + 1) := by
  have hremaining := h.remaining_more more
  have hnone : d.remaining - 1 = 0 := by omega
  have hfinished := DeltaSample.finished_succ_last h.count_le more hlast
  rw [once, Bool.not_false] at hfinished
  unfold Dmc.accept
  dsimp only
  rw [if_pos hnone, if_neg (by simp [h.looping_eq, once])]
  refine ⟨h.irqEnabled_eq, h.looping_eq, h.sampleAddress_eq, h.sampleLength_eq, ?_, fun less => ?_,
    ?_, DeltaSample.lt_of_once h.count_le more, Nat.le_refl 8⟩
  · rw [hfinished, if_pos rfl]
    exact hnone
  · rw [hfinished] at less
    cases less
  · dsimp only
    rw [hfinished, h.irq_more more, h.irqEnabled_eq, Bool.false_or, Bool.and_true]

/-- A byte that is fetched is counted. -/
theorem Plays.accept : (d.accept value).Plays s (count + 1) := by
  have hmod := Nat.mod_lt count s.bytes_pos
  obtain hlast | hnext : count % s.bytes + 1 = s.bytes ∨ count % s.bytes + 1 < s.bytes := by omega
  · cases hlooping : s.looping with
    | true => exact h.accept_again more value hlast hlooping
    | false => exact h.accept_end more value hlast hlooping
  · exact h.accept_more more value hnext

end Accept

/-- A write to $4010 that keeps the two flags. -/
theorem Plays.writeControl (h : d.Plays s count) {value : UInt8} (irq : bit value 7 = s.irqEnabled)
    (loop : bit value 6 = s.looping) : (d.writeControl value).Plays s count := by
  refine ⟨irq, loop, h.sampleAddress_eq, h.sampleLength_eq, h.remaining_eq, h.address_eq, ?_,
    h.count_le, h.bitsLeft_le⟩
  show (d.irq && bit value 7) = _
  rw [irq, h.irq_eq, Bool.and_right_comm, Bool.and_self]

/-- A channel with no bytes remaining is switched on. -/
theorem plays_switchedOn (idle : d.remaining = 0) (hbits : d.bitsLeft ≤ 8) (start length : UInt8) :
    (((d.writeAddress start).writeLength length).setEnabled true).Plays
      ⟨start, length, d.irqEnabled, d.looping⟩ 0 := by
  have hfinished := DeltaSample.finished_zero ⟨start, length, d.irqEnabled, d.looping⟩
  have hbegun : ((d.writeAddress start).writeLength length).setEnabled true =
      { d with
        irq := false
        sampleAddress := 0xC000 + start.toUInt16 * 64, address := 0xC000 + start.toUInt16 * 64
        sampleLength := length.toNat * 16 + 1, remaining := length.toNat * 16 + 1 } := by
    unfold Dmc.setEnabled
    exact if_pos idle
  have hbytes : length.toNat * 16 + 1 = 16 * length.toNat + 1 := by omega
  have hplace := DeltaSample.place_zero ⟨start, length, d.irqEnabled, d.looping⟩
  rw [hbegun]
  refine ⟨rfl, rfl, hplace.symm, hbytes, ?_, fun _ => ?_, ?_, fun _ => Nat.zero_le _, hbits⟩
  · rw [hfinished, if_neg (by decide), Nat.zero_mod, Nat.sub_zero]
    exact hbytes
  · rw [DeltaSample.asked_zero]
    exact hplace.symm
  · rw [hfinished, Bool.and_false]

/-! ## What is fetched between two states -/

/-- From one state to a later one the channel played `bits` bits and asked for these addresses.
    While the sample is not over, every eight bits took a byte. -/
structure Fetches (d : Dmc) (s : DeltaSample) (count bits : Nat) (addresses : List UInt16)
    (later : Dmc) : Prop where
  plays : later.Plays s (count + addresses.length)
  addresses_eq : addresses = (List.range' count addresses.length).map s.asked
  bits_eq : s.finished (count + addresses.length) = false →
    bits + later.bitsLeft = d.bitsLeft + 8 * addresses.length

variable {e f : Dmc}

theorem Fetches.append {bits more : Nat} {addresses others : List UInt16}
    (h : d.Fetches s count bits addresses e)
    (h' : e.Fetches s (count + addresses.length) more others f) :
    d.Fetches s count (bits + more) (addresses ++ others) f := by
  have hplays := h'.plays
  have hothers := h'.addresses_eq
  have hbits := h'.bits_eq
  rw [Nat.add_assoc, ← List.length_append] at hplays hbits
  refine ⟨hplays, ?_, fun going => ?_⟩
  · rw [List.length_append, ← List.range'_append_1, List.map_append, ← h.addresses_eq, ← hothers]
  · -- what is not over now was not over before
    have hbefore : s.finished (count + addresses.length) = false := by
      cases hlooping : s.looping with
      | true => exact DeltaSample.finished_eq_false.mpr (.inl hlooping)
      | false =>
        have hlt := DeltaSample.lt_of_once hplays.count_le going hlooping
        rw [List.length_append] at hlt
        exact DeltaSample.finished_eq_false.mpr (.inr (by omega))
    have hfirst := h.bits_eq hbefore
    have hsecond := hbits going
    rw [List.length_append]
    omega

/-- Nothing is played, and what is left to play stays. -/
theorem Plays.fetches_nil (h : e.Plays s count) (same : e.bitsLeft = d.bitsLeft) :
    d.Fetches s count 0 [] e :=
  ⟨h, rfl, fun _ => by rw [same, List.length_nil, Nat.zero_add, Nat.mul_zero, Nat.add_zero]⟩

theorem Plays.setTimer (h : d.Plays s count) (timer : SampleTimer) :
    d.Fetches s count 0 [] { d with timer } := by
  have hplays : Plays { d with timer } s count :=
    ⟨h.irqEnabled_eq, h.looping_eq, h.sampleAddress_eq, h.sampleLength_eq, h.remaining_eq,
      h.address_eq, h.irq_eq, h.count_le, h.bitsLeft_le⟩
  exact hplays.fetches_nil rfl

/-- Before a bit is played there is one: the next byte is fetched, or silence begins. -/
theorem Plays.ready (h : d.Plays s count) (ask : Reader) (fetched : Array UInt16) :
    ∃ addresses, (d.ready ask fetched).1.toList = fetched.toList ++ addresses ∧
      d.Fetches s count 0 addresses (d.ready ask fetched).2 ∧
      0 < (d.ready ask fetched).2.bitsLeft := by
  unfold Dmc.ready
  split
  · next hnone =>
    rw [h.active_eq]
    cases hfinished : s.finished count with
    | true =>
      have hplays : Plays { d with bitsLeft := 8, silence := true } s count :=
        ⟨h.irqEnabled_eq, h.looping_eq, h.sampleAddress_eq, h.sampleLength_eq, h.remaining_eq,
          h.address_eq, h.irq_eq, h.count_le, Nat.le_refl 8⟩
      refine ⟨[], (List.append_nil _).symm, ⟨hplays, rfl, fun going => ?_⟩, Nat.zero_lt_succ 7⟩
      cases hfinished.symm.trans going
    | false =>
      have hbits := d.bitsLeft_accept (ask fetched d.address)
      rw [Bool.not_false, if_pos rfl]
      refine ⟨[d.address], Array.toList_push, ⟨h.accept hfinished _, ?_, fun _ => ?_⟩, ?_⟩
      · rw [h.address_eq hfinished]
        rfl
      · rw [hbits, hnone, List.length_singleton]
      · rw [hbits]
        decide
  · next hsome =>
    exact ⟨[], (List.append_nil _).symm, h.fetches_nil rfl, Nat.pos_of_ne_zero hsome⟩

theorem Plays.playBit (h : d.Plays s count) (filled : 0 < d.bitsLeft) :
    d.Fetches s count 1 [] d.playBit := by
  have hless : d.bitsLeft - 1 ≤ 8 := Nat.le_trans (Nat.sub_le _ _) h.bitsLeft_le
  have hplays : d.playBit.Plays s count :=
    ⟨h.irqEnabled_eq, h.looping_eq, h.sampleAddress_eq, h.sampleLength_eq, h.remaining_eq,
      h.address_eq, h.irq_eq, h.count_le, hless⟩
  refine ⟨hplays, rfl, fun _ => ?_⟩
  show 1 + (d.bitsLeft - 1) = d.bitsLeft + 8 * 0
  omega

theorem Plays.playBits (h : d.Plays s count) (ask : Reader) (fetched : Array UInt16)
    (bits : Nat) :
    ∃ addresses, (playBitsFrom ask d fetched bits).1.toList = fetched.toList ++ addresses ∧
      d.Fetches s count bits addresses (playBitsFrom ask d fetched bits).2 := by
  induction bits generalizing d fetched count with
  | zero => exact ⟨[], (List.append_nil _).symm, h.fetches_nil rfl⟩
  | succ bits ih =>
    obtain ⟨first, hfirst, hready, hfilled⟩ := h.ready ask fetched
    have hbit := hready.append (hready.plays.playBit hfilled)
    rw [List.append_nil] at hbit
    obtain ⟨later, hlater, hrest⟩ := ih hbit.plays (d.ready ask fetched).1
    refine ⟨first ++ later, ?_, ?_⟩
    · unfold playBitsFrom
      dsimp only
      rw [hlater, hfirst, List.append_assoc]
    · have hall := hbit.append hrest
      rw [Nat.zero_add, Nat.add_comm] at hall
      exact hall

/-! ## Samples and slices -/

/-- What decides when bits are due. -/
def pace (d : Dmc) : Fin 16 × SampleTimer := (d.rateIndex, d.timer)

theorem pace_accept (d : Dmc) (value : UInt8) : (d.accept value).pace = d.pace := by
  unfold Dmc.accept Dmc.restart
  dsimp only
  split
  · split <;> rfl
  · rfl

theorem pace_ready (d : Dmc) (ask : Reader) (fetched : Array UInt16) :
    (d.ready ask fetched).2.pace = d.pace := by
  unfold Dmc.ready
  split
  · split
    · exact d.pace_accept _
    · rfl
  · rfl

theorem pace_playBits (d : Dmc) (ask : Reader) (fetched : Array UInt16) (bits : Nat) :
    (playBitsFrom ask d fetched bits).2.pace = d.pace := by
  induction bits generalizing d fetched with
  | zero => rfl
  | succ bits ih => exact (ih _ _).trans (d.pace_ready ask fetched)

/-- The timer made bits out of samples; less than one bit is left over. -/
structure Counts (d : Dmc) (bits samples : Nat) (later : Dmc) : Prop where
  rate_eq : later.rateIndex = d.rateIndex
  units_eq : bits * (rates.get d.rateIndex * cycleUnit) + later.timer.rest =
    d.timer.rest + samples * sampleUnits
  rest_lt : 0 < samples → later.timer.rest < rates.get d.rateIndex * cycleUnit

theorem rates_pos : ∀ index : Fin 16, 0 < rates.get index := by decide

theorem counts_zero (d : Dmc) : d.Counts 0 0 d := by
  refine ⟨rfl, ?_, fun some => absurd some (Nat.lt_irrefl 0)⟩
  rw [Nat.zero_mul, Nat.zero_mul, Nat.zero_add, Nat.add_zero]

theorem Counts.succ {ticked : Nat × SampleTimer} {bits samples : Nat}
    (hticked : d.timer.Cuts (rates.get d.rateIndex) ticked)
    (hpace : e.pace = (d.rateIndex, ticked.2)) (h : e.Counts bits samples f) :
    d.Counts (ticked.1 + bits) (samples + 1) f := by
  obtain ⟨hfirst, hfirst_lt⟩ := hticked
  obtain ⟨hrate, htimer⟩ := Prod.mk.inj hpace
  obtain ⟨hlater, hunits, hrest⟩ := h
  rw [hrate, htimer] at hunits
  rw [hrate] at hrest hlater
  refine ⟨hlater, ?_, fun _ => ?_⟩
  · rw [Nat.add_mul, Nat.succ_mul]
    omega
  · obtain rfl | hmore := Nat.eq_zero_or_pos samples
    · rw [Nat.zero_mul] at hunits
      omega
    · exact hrest hmore

/-- A slice has at least 17 bits, as many as at the slowest rate. -/
theorem Counts.slice {bits : Nat} (h : d.Counts bits sliceSamples e) : 17 ≤ bits := by
  have hslowest : ∀ index : Fin 16, rates.get index * cycleUnit ≤ 428 * cycleUnit := by decide
  have hslice : 17 * (428 * cycleUnit) ≤ sliceSamples * sampleUnits := by decide
  have hunits := h.units_eq
  have hrest := h.rest_lt (by decide)
  have hlength := hslowest d.rateIndex
  generalize rates.get d.rateIndex * cycleUnit = length at hunits hrest hlength
  by_contra hfew
  have hle : bits * length ≤ 16 * length := Nat.mul_le_mul_right length (by omega)
  omega

theorem Plays.takeLevels (h : d.Plays s count) {tick : SampleTimer → Nat → Nat × SampleTimer}
    (htick : ∀ (timer : SampleTimer) (period : Nat), 0 < period →
      timer.Cuts period (tick timer period)) (ask : Reader) (out : Played) (samples : Nat) :
    ∃ bits addresses,
      (takeLevelsWith tick (playBitsFrom ask) d out samples).1.fetched.toList =
          out.fetched.toList ++ addresses ∧
        d.Fetches s count bits addresses
          (takeLevelsWith tick (playBitsFrom ask) d out samples).2 ∧
        d.Counts bits samples (takeLevelsWith tick (playBitsFrom ask) d out samples).2 := by
  induction samples generalizing d out count with
  | zero => exact ⟨0, [], (List.append_nil _).symm, h.fetches_nil rfl, d.counts_zero⟩
  | succ samples ih =>
    have hticked := htick d.timer (rates.get d.rateIndex) (rates_pos d.rateIndex)
    unfold takeLevelsWith
    dsimp only
    generalize tick d.timer (rates.get d.rateIndex) = ticked at hticked ⊢
    have htimer := h.setTimer ticked.2
    have hpace := pace_playBits { d with timer := ticked.2 } ask out.fetched ticked.1
    obtain ⟨first, hfirst, hplayed⟩ := htimer.plays.playBits ask out.fetched ticked.1
    generalize playBitsFrom ask { d with timer := ticked.2 } out.fetched ticked.1 = played at *
    obtain ⟨bits, later, hlater, hfetches, hcounts⟩ :=
      ih (htimer.append hplayed).plays ⟨out.levels.push played.2.level, played.1⟩
    refine ⟨ticked.1 + bits, first ++ later, ?_, ?_, hcounts.succ hticked hpace⟩
    · rw [hlater, hfirst, List.append_assoc]
    · have hall := (htimer.append hplayed).append hfetches
      rw [Nat.zero_add, List.nil_append] at hall
      exact hall

theorem sliceFrom_eq (d : Dmc) (ask : Reader) :
    d.sliceFrom ask = takeLevelsWith SampleTimer.tick (playBitsFrom ask) d {} sliceSamples := rfl

theorem Plays.slice (h : d.Plays s count) (ask : Reader) :
    ∃ bits, d.Fetches s count bits (d.sliceFrom ask).1.fetched.toList (d.sliceFrom ask).2 ∧
      17 ≤ bits := by
  have hlevels := h.takeLevels (fun timer _ => timer.cuts_tick) ask {} sliceSamples
  rw [← sliceFrom_eq] at hlevels
  generalize d.sliceFrom ask = played at hlevels ⊢
  obtain ⟨bits, addresses, hfetched, hfetches, hcounts⟩ := hlevels
  rw [show ({} : Played).fetched.toList = [] from rfl, List.nil_append] at hfetched
  rw [hfetched]
  exact ⟨bits, hfetches, hcounts.slice⟩

end Dmc

/-! ## Any calls that leave the sample alone -/

namespace Apu

/-- The addresses that were read for a slice. -/
def Slice.addresses (taken : Slice) : List UInt16 := taken.fetched.toList

namespace Call

/-- Whether the call takes a slice of sound. -/
def isSlice : Call → Bool
  | slice _ => true
  | write _ _ | readStatus | reset _ => false

/-- The addresses that a call reads. -/
def fetched (apu : Apu) : Call → List UInt16
  | slice ask => (apu.sliceFrom ask).1.addresses
  | write _ _ | readStatus | reset _ => []

/-- The call takes a slice, reads the status, or chooses a rate and keeps the flags. -/
def Keeps (s : DeltaSample) : Call → Prop
  | slice _ | readStatus => True
  | write addr value => addr = 0x4010 ∧ bit value 7 = s.irqEnabled ∧ bit value 6 = s.looping
  | reset _ => False

end Call

/-- The addresses that calls read one after another. -/
def fetched : (calls : List Call) → Apu → List UInt16
  | [], _ => []
  | call :: calls, apu => call.fetched apu ++ fetched calls (call.run apu)

variable {apu : Apu} {s : DeltaSample} {count : Nat}

theorem addresses_joined (pulse1 pulse2 : Array Nat × Pulse) (triangle : Array Nat × Triangle)
    (noise : Array Nat × Noise) (dmc : Dmc.Played × Dmc) (sequencer : Sequencer) :
    (joined pulse1 pulse2 triangle noise dmc sequencer).1.addresses = dmc.1.fetched.toList := rfl

theorem dmc_joined (pulse1 pulse2 : Array Nat × Pulse) (triangle : Array Nat × Triangle)
    (noise : Array Nat × Noise) (dmc : Dmc.Played × Dmc) (sequencer : Sequencer) :
    (joined pulse1 pulse2 triangle noise dmc sequencer).2.dmc = dmc.2 := rfl

theorem fetches_slice (h : apu.dmc.Plays s count) (ask : Reader) :
    ∃ bits, apu.dmc.Fetches s count bits (apu.sliceFrom ask).1.addresses
      (apu.sliceFrom ask).2.dmc ∧ 17 ≤ bits := by
  have hslice := h.slice ask
  unfold sliceFrom
  rw [addresses_joined, dmc_joined]
  exact hslice

theorem fetches_run (h : apu.dmc.Plays s count) {call : Call} (keeps : call.Keeps s) :
    ∃ bits, apu.dmc.Fetches s count bits (call.fetched apu) (call.run apu).dmc ∧
      17 * call.isSlice.toNat ≤ bits := by
  cases call with
  | write addr value =>
    obtain ⟨rfl, hirq, hlooping⟩ := keeps
    have hdmc : ((Call.write 0x4010 value).run apu).dmc = apu.dmc.writeControl value := rfl
    refine ⟨0, ?_, Nat.le_refl 0⟩
    rw [hdmc]
    exact (h.writeControl hirq hlooping).fetches_nil rfl
  | readStatus => exact ⟨0, h.fetches_nil rfl, Nat.le_refl 0⟩
  | reset kind => exact keeps.elim
  | slice ask => exact fetches_slice h ask

theorem fetches_after (h : apu.dmc.Plays s count) {calls : List Call}
    (keeps : ∀ call ∈ calls, call.Keeps s) :
    ∃ bits, apu.dmc.Fetches s count bits (fetched calls apu) (after calls apu).dmc ∧
      17 * calls.countP Call.isSlice ≤ bits := by
  induction calls generalizing apu count with
  | nil => exact ⟨0, h.fetches_nil rfl, Nat.le_refl 0⟩
  | cons call calls ih =>
    obtain ⟨hcall, hcalls⟩ := List.forall_mem_cons.mp keeps
    obtain ⟨bits, hfirst, hbits⟩ := fetches_run h hcall
    obtain ⟨more, hlater, hmore⟩ := ih hfirst.plays hcalls
    refine ⟨bits + more, hfirst.append hlater, ?_⟩
    have hcount : (call :: calls).countP Call.isSlice =
        calls.countP Call.isSlice + call.isSlice.toNat := by
      rw [List.countP_cons]
      cases call.isSlice <;> rfl
    omega

/-- A sample is chosen and the channel, with no bytes remaining, is switched on. Then slices are
    taken, with changes of the rate and reads of the status between them in any order. All the
    addresses that were read, put together, go through the bytes of the sample in order, and start
    over after the last just if it loops. Without a loop nothing is read after the last byte; the
    channel is reported in $4015 until then, and by it the IRQ is raised, if the flag was set.
    With a loop the channel stays active and never raises one. Each slice reads at least two
    bytes, as long as there are any. -/
theorem plays_sample (calls : List Call) (start length status : UInt8)
    (idle : (after calls {}).dmc.remaining = 0) (on : bit status 4 = true) (later : List Call)
    (keeps : ∀ call ∈ later, call.Keeps
      ⟨start, length, (after calls {}).dmc.irqEnabled, (after calls {}).dmc.looping⟩) :
    let before := after calls {}
    let s : DeltaSample := ⟨start, length, before.dmc.irqEnabled, before.dmc.looping⟩
    let begun := after [.write 0x4012 start, .write 0x4013 length, .write 0x4015 status] before
    let last := after later begun
    let addresses := fetched later begun
    addresses = (List.range addresses.length).map s.asked ∧
      (s.looping = false → addresses.length ≤ s.bytes) ∧
      (bit last.readStatus.1 4 = true ↔ s.looping = true ∨ addresses.length < s.bytes) ∧
      (last.dmc.irq = true ↔
        s.irqEnabled = true ∧ s.looping = false ∧ addresses.length = s.bytes) ∧
      bit last.readStatus.1 7 = last.dmc.irq ∧
      (2 * later.countP Call.isSlice ≤ addresses.length ∨
        s.looping = false ∧ addresses.length = s.bytes) := by
  intro before s begun last addresses
  have hbounded : before.Bounded := bounded_after bounded_new calls
  have hbegun : begun.dmc.Plays s 0 := by
    have hdmc : begun.dmc =
        ((before.dmc.writeAddress start).writeLength length).setEnabled (bit status 4) := rfl
    rw [hdmc, on]
    exact Dmc.plays_switchedOn idle hbounded.dmc.bitsLeft start length
  obtain ⟨bits, hfetches, hbits⟩ : ∃ bits, begun.dmc.Fetches s 0 bits addresses last.dmc ∧
      17 * later.countP Call.isSlice ≤ bits := fetches_after hbegun keeps
  have hplays := hfetches.plays
  rw [Nat.zero_add] at hplays
  have haddresses := hfetches.addresses_eq
  rw [← List.range_eq_range'] at haddresses
  refine ⟨haddresses, hplays.count_le, ?_, ?_, bit_readStatus_dmcIrq last, ?_⟩
  · rw [bit_readStatus_dmc, hplays.active_eq, Bool.not_eq_true', DeltaSample.finished_eq_false]
    cases hlooping : s.looping with
    | true => simp
    | false =>
      have hle := hplays.count_le hlooping
      have hmore : addresses.length ≠ s.bytes ↔ addresses.length < s.bytes := by omega
      simpa using hmore
  · rw [hplays.irq_eq, Bool.and_eq_true, DeltaSample.finished_eq_true]
  · cases hfinished : s.finished addresses.length with
    | true => exact .inr (DeltaSample.finished_eq_true.mp hfinished)
    | false =>
      have hcount := hfetches.bits_eq (by rwa [Nat.zero_add])
      have hleft := hbegun.bitsLeft_le
      exact .inl (by omega)

/-- The 65 bytes from $FFC0 on are read within 33 slices, also at another rate than the first; the
    last is at $8000. -/
theorem plays_sample_to_its_end :
    let begun := after [.write 0x4012 0xFF, .write 0x4013 0x04, .write 0x4015 0x10]
      (after [.write 0x4010 0x80] {})
    let later : List Call :=
      .write 0x4010 0x83 :: .readStatus :: List.replicate 33 (.slice fun _ _ => 0)
    (fetched later begun).length = 65 ∧ (fetched later begun)[64]? = some 0x8000 ∧
      bit (after later begun).readStatus.1 4 = false ∧ (after later begun).dmc.irq = true := by
  have hplays := plays_sample [.write 0x4010 0x80] 0xFF 0x04 0x10 rfl (by decide)
    (.write 0x4010 0x83 :: .readStatus :: List.replicate 33 (.slice fun _ _ => 0)) (by
      refine List.forall_mem_cons.mpr ⟨⟨rfl, by decide, by decide⟩, ?_⟩
      refine List.forall_mem_cons.mpr ⟨trivial, fun call hcall => ?_⟩
      rw [List.eq_of_mem_replicate hcall]
      trivial)
  have hirqEnabled : (after [.write 0x4010 0x80] {}).dmc.irqEnabled = true := rfl
  have hlooping : (after [.write 0x4010 0x80] {}).dmc.looping = false := rfl
  have hbytes : DeltaSample.bytes ⟨0xFF, 0x04, true, false⟩ = 65 := rfl
  have hslices : (Call.write 0x4010 0x83 :: .readStatus ::
      List.replicate 33 (.slice fun _ _ => 0)).countP Call.isSlice = 33 := rfl
  dsimp only at hplays ⊢
  rw [hirqEnabled, hlooping, hbytes, hslices] at hplays
  obtain ⟨haddresses, hle, hactive, hirq, -, hprogress⟩ := hplays
  have hmost := hle rfl
  obtain ⟨-, hlength⟩ := hprogress.resolve_left (by omega)
  rw [hlength] at haddresses hactive hirq
  refine ⟨hlength, ?_, ?_, hirq.mpr ⟨rfl, rfl, rfl⟩⟩
  · rw [haddresses]
    decide
  · rw [Bool.eq_false_iff, Ne, hactive]
    decide

end Apu
end Nes
