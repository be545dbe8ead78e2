/-
  Sums and differences of numbers of many bytes.

  A program adds two numbers byte by byte, lowest first, and lets the carry run from each addition
  into the next. `columns` are the bytes that stand one below the other, with the operands that they
  are read from, and a pass loads the upper byte of each column and adds or subtracts the lower one.

  One column is exact: its sum and the carry out of it are worth what came in (`value_addBytes`). So
  is a pass, by induction on its columns (`value_pass`), and it overflows exactly if the sum of the
  signed numbers has too many bytes (`overflow_pass`): the lower columns only add a fraction of the
  highest one. Subtraction adds the complement with the carry set, and the complement of a number is
  what is missing to the highest one (`unsigned_complement`, `signed_complement`).
-/
import Mathlib.Algebra.GroupWithZero.Nat
import Mathlib.Algebra.Ring.Int.Defs
import Nes.Cpu.Execute
import Nes.Cpu.FlatMemory

namespace Nes

namespace LittleEndian

/-! ## Numbers in bytes -/

/-- The number with the given bytes, lowest first. -/
def unsigned : List UInt8 → Nat
  | [] => 0
  | byte :: bytes => byte.toNat + 256 * unsigned bytes

/-- The number with the given bytes in two's complement, lowest first. -/
def signed (bytes : List UInt8) : Int :=
  if 2 * unsigned bytes < 256 ^ bytes.length then unsigned bytes
  else unsigned bytes - (256 ^ bytes.length : Nat)

/-- The number can be written with `size` bytes in two's complement. -/
def FitsSigned (size : Nat) (number : Int) : Prop :=
  -((256 ^ size : Nat) : Int) ≤ 2 * number ∧ 2 * number < (256 ^ size : Nat)

instance (size : Nat) (number : Int) : Decidable (FitsSigned size number) :=
  inferInstanceAs (Decidable (_ ∧ _))

theorem unsigned_lt (bytes : List UInt8) : unsigned bytes < 256 ^ bytes.length := by
  induction bytes with
  | nil => decide
  | cons byte bytes ih =>
    have hbyte := byte.toNat_lt
    rw [List.length_cons, Nat.pow_succ, unsigned]
    omega

/-- The range of a number with at least one byte has two halves. -/
theorem exists_half {bytes : List UInt8} (filled : bytes ≠ []) :
    ∃ half, 256 ^ bytes.length = 2 * half := by
  obtain ⟨size, hsize⟩ := Nat.exists_eq_succ_of_ne_zero (mt List.length_eq_zero_iff.mp filled)
  refine ⟨128 * 256 ^ size, ?_⟩
  rw [hsize, Nat.succ_eq_add_one, Nat.pow_succ]
  omega

/-- The sign is that of the higher bytes, if there are any. -/
theorem signed_cons (byte : UInt8) {bytes : List UInt8} (filled : bytes ≠ []) :
    signed (byte :: bytes) = byte.toNat + 256 * signed bytes := by
  have hbyte := byte.toNat_lt
  obtain ⟨half, hhalf⟩ := exists_half filled
  unfold signed
  rw [unsigned, List.length_cons, Nat.pow_succ, hhalf]
  split <;> split <;> omega

theorem signed_singleton (byte : UInt8) :
    signed [byte] = if byte.toNat < 128 then (byte.toNat : Int) else byte.toNat - 256 := by
  unfold signed unsigned unsigned
  rw [List.length_singleton]
  split <;> split <;> omega

/-- A low byte in front never makes a number too long or short enough. -/
theorem fitsSigned_succ (size : Nat) {low number : Int} (pos : 0 ≤ low) (low_lt : low < 256)
    (filled : 0 < size) :
    FitsSigned (size + 1) (low + 256 * number) ↔ FitsSigned size number := by
  obtain ⟨size, rfl⟩ := Nat.exists_eq_succ_of_ne_zero (Nat.pos_iff_ne_zero.mp filled)
  unfold FitsSigned
  rw [Nat.succ_eq_add_one, Nat.pow_succ, Nat.pow_succ]
  omega

/-! ## Complements -/

/-- Each byte with its bits turned over. -/
def complement (bytes : List UInt8) : List UInt8 := bytes.map (~~~·)

/-- A number and its complement make the highest number. -/
theorem unsigned_complement (bytes : List UInt8) :
    unsigned (complement bytes) + unsigned bytes + 1 = 256 ^ bytes.length := by
  induction bytes with
  | nil => rfl
  | cons byte bytes ih =>
    have hbyte := byte.toNat_lt
    have hturned : (~~~byte).toNat = 255 - byte.toNat := UInt8.toNat_not byte
    unfold complement at ih ⊢
    rw [List.map_cons, unsigned, unsigned, hturned, List.length_cons, Nat.pow_succ, ← ih]
    omega

theorem signed_complement {bytes : List UInt8} (filled : bytes ≠ []) :
    signed (complement bytes) = -1 - signed bytes := by
  have hsum := unsigned_complement bytes
  have hlength : (complement bytes).length = bytes.length := List.length_map _
  obtain ⟨half, hhalf⟩ := exists_half filled
  unfold signed
  rw [hlength]
  rw [hhalf] at hsum ⊢
  split <;> split <;> omega

end LittleEndian

open LittleEndian

/-! ## One column -/

namespace Cpu

/-- Loads a byte and adds another one to it. -/
def addBytes (cpu : Cpu) (upper lower : UInt8) : Cpu := (cpu.setA upper).add lower

/-- The sum of a column and the carry out of it are what came in. -/
theorem value_addBytes (cpu : Cpu) (upper lower : UInt8) :
    (cpu.addBytes upper lower).a.toNat + 256 * (cpu.addBytes upper lower).flags.carry.toNat =
      upper.toNat + lower.toNat + cpu.flags.carry.toNat := by
  have hupper := upper.toNat_lt
  have hlower := lower.toNat_lt
  have hcarry := cpu.flags.carry.toNat_le
  show (UInt8.ofNat (upper.toNat + lower.toNat + cpu.flags.carry.toNat)).toNat +
    256 * (decide (0xFF < upper.toNat + lower.toNat + cpu.flags.carry.toNat)).toNat = _
  generalize cpu.flags.carry.toNat = carry at hcarry ⊢
  rw [UInt8.toNat_ofNat']
  by_cases h : 0xFF < upper.toNat + lower.toNat + carry
  · simp only [h, decide_true, Bool.toNat_true]
    omega
  · simp only [h, decide_false, Bool.toNat_false]
    omega

theorem signBit_eq_decide (byte : UInt8) : signBit byte = decide (128 ≤ byte.toNat) :=
  decide_eq_decide.mpr UInt8.le_iff_toNat_le

/-- The column overflows if its signed sum, with the carry that came in, is no signed byte. -/
theorem overflow_addBytes (cpu : Cpu) (upper lower : UInt8) :
    (cpu.addBytes upper lower).flags.overflow = true ↔
      ¬FitsSigned 1 (signed [upper] + signed [lower] + cpu.flags.carry.toNat) := by
  have hupper := upper.toNat_lt
  have hlower := lower.toNat_lt
  have hcarry := cpu.flags.carry.toNat_le
  have htotal : (cpu.addBytes upper lower).a.toNat =
      (upper.toNat + lower.toNat + cpu.flags.carry.toNat) % 256 := UInt8.toNat_ofNat'
  show (signBit upper == signBit lower &&
    signBit upper != signBit (cpu.addBytes upper lower).a) = true ↔ _
  rw [signBit_eq_decide, signBit_eq_decide, signBit_eq_decide, htotal, signed_singleton,
    signed_singleton]
  generalize cpu.flags.carry.toNat = carry at hcarry ⊢
  unfold FitsSigned
  simp only [Bool.and_eq_true, beq_iff_eq, bne_iff_ne, decide_eq_decide, ne_eq]
  split <;> split <;> omega

/-! ## A pass over columns -/

/-- Adds pairs of bytes one after the other; gives the accumulators. -/
def pass (cpu : Cpu) : List (UInt8 × UInt8) → List UInt8 × Cpu
  | [] => ([], cpu)
  | (upper, lower) :: rest =>
    let next := cpu.addBytes upper lower
    let (sums, last) := next.pass rest
    (next.a :: sums, last)

theorem length_pass (cpu : Cpu) (bytes : List (UInt8 × UInt8)) :
    (cpu.pass bytes).1.length = bytes.length := by
  induction bytes generalizing cpu with
  | nil => rfl
  | cons column bytes ih => exact congrArg (· + 1) (ih (cpu.addBytes column.1 column.2))

/-- The sums of a pass and the carry out of it are what came in. -/
theorem value_pass (cpu : Cpu) (bytes : List (UInt8 × UInt8)) :
    unsigned (cpu.pass bytes).1 +
        256 ^ bytes.length * (cpu.pass bytes).2.flags.carry.toNat =
      unsigned (bytes.map Prod.fst) + unsigned (bytes.map Prod.snd) + cpu.flags.carry.toNat := by
  induction bytes generalizing cpu with
  | nil => simp [pass, unsigned]
  | cons column bytes ih =>
    have hcolumn := cpu.value_addBytes column.1 column.2
    have hrest := ih (cpu.addBytes column.1 column.2)
    show (cpu.addBytes column.1 column.2).a.toNat +
      256 * unsigned ((cpu.addBytes column.1 column.2).pass bytes).1 + 256 ^ (bytes.length + 1) *
        ((cpu.addBytes column.1 column.2).pass bytes).2.flags.carry.toNat = _
    rw [Nat.pow_succ, Nat.mul_right_comm, List.map_cons, List.map_cons, unsigned, unsigned]
    omega

/-- A pass overflows if the sum of the signed numbers, with the carry that came in, needs more
    bytes. -/
theorem overflow_pass (cpu : Cpu) {bytes : List (UInt8 × UInt8)} (filled : bytes ≠ []) :
    (cpu.pass bytes).2.flags.overflow = true ↔ ¬FitsSigned bytes.length
      (signed (bytes.map Prod.fst) + signed (bytes.map Prod.snd) + cpu.flags.carry.toNat) := by
  induction bytes generalizing cpu with
  | nil => exact absurd rfl filled
  | cons column bytes ih =>
    have hcolumn := cpu.value_addBytes column.1 column.2
    rcases eq_or_ne bytes [] with rfl | more
    · exact cpu.overflow_addBytes column.1 column.2
    · have hlow : ((cpu.addBytes column.1 column.2).a.toNat : Int) < 256 :=
        Int.ofNat_lt.mpr (UInt8.toNat_lt _)
      -- the sum of this column is the low byte, and its carry goes into the sum of the others
      have hsum : signed ((column :: bytes).map Prod.fst) +
          signed ((column :: bytes).map Prod.snd) + cpu.flags.carry.toNat =
          (cpu.addBytes column.1 column.2).a.toNat +
            256 * (signed (bytes.map Prod.fst) + signed (bytes.map Prod.snd) +
              (cpu.addBytes column.1 column.2).flags.carry.toNat) := by
        rw [List.map_cons, List.map_cons, signed_cons _ (by simpa using more),
          signed_cons _ (by simpa using more)]
        omega
      rw [hsum, List.length_cons,
        fitsSigned_succ _ (Int.natCast_nonneg _) hlow (List.length_pos_iff.mpr more)]
      exact ih (cpu.addBytes column.1 column.2) more

/-- With the carry clear, a pass adds. -/
theorem pass_adds {cpu : Cpu} (clear : cpu.flags.carry = false) {bytes : List (UInt8 × UInt8)}
    (filled : bytes ≠ []) :
    let upper := bytes.map Prod.fst
    let lower := bytes.map Prod.snd
    unsigned (cpu.pass bytes).1 = (unsigned upper + unsigned lower) % 256 ^ bytes.length ∧
      ((cpu.pass bytes).2.flags.carry = true ↔
        256 ^ bytes.length ≤ unsigned upper + unsigned lower) ∧
      ((cpu.pass bytes).2.flags.overflow = true ↔
        ¬FitsSigned bytes.length (signed upper + signed lower)) := by
  intro upper lower
  have hvalue : unsigned (cpu.pass bytes).1 + 256 ^ bytes.length *
      (cpu.pass bytes).2.flags.carry.toNat = unsigned upper + unsigned lower +
        cpu.flags.carry.toNat := cpu.value_pass bytes
  have hoverflow := cpu.overflow_pass filled
  have hsum := unsigned_lt (cpu.pass bytes).1
  rw [clear, Bool.toNat_false] at hvalue hoverflow
  rw [length_pass] at hsum
  refine ⟨?_, ?_, ?_⟩
  · rw [← Nat.add_zero (unsigned upper + unsigned lower), ← hvalue, Nat.add_mul_mod_self_left,
      Nat.mod_eq_of_lt hsum]
  · cases hcarry : (cpu.pass bytes).2.flags.carry with
    | false =>
      rw [hcarry, Bool.toNat_false] at hvalue
      exact iff_of_false nofun (by omega)
    | true =>
      rw [hcarry, Bool.toNat_true] at hvalue
      exact iff_of_true rfl (by omega)
  · rw [hoverflow, Int.natCast_zero, Int.add_zero]

/-- The lower byte of a column with its bits turned over. -/
def lowerTurned (column : UInt8 × UInt8) : UInt8 × UInt8 := (column.1, ~~~column.2)

/-- With the carry set, adding the complement subtracts. -/
theorem pass_subtracts {cpu : Cpu} (set : cpu.flags.carry = true) {bytes : List (UInt8 × UInt8)}
    (filled : bytes ≠ []) :
    let upper := bytes.map Prod.fst
    let lower := bytes.map Prod.snd
    let result := cpu.pass (bytes.map lowerTurned)
    (unsigned result.1 : Int) =
        (unsigned upper - unsigned lower : Int) % (256 ^ bytes.length : Nat) ∧
      (result.2.flags.carry = true ↔ unsigned lower ≤ unsigned upper) ∧
      (result.2.flags.overflow = true ↔
        ¬FitsSigned bytes.length (signed upper - signed lower)) := by
  intro upper lower result
  have hupper : (bytes.map lowerTurned).map Prod.fst = upper := List.map_map
  have hlower : (bytes.map lowerTurned).map Prod.snd = complement lower := by
    unfold complement
    rw [List.map_map, List.map_map]
    rfl
  have hturned : bytes.map lowerTurned ≠ [] := mt List.map_eq_nil_iff.mp filled
  have hvalue : unsigned result.1 + 256 ^ bytes.length * result.2.flags.carry.toNat =
      unsigned upper + unsigned (complement lower) + 1 := by
    have h := cpu.value_pass (bytes.map lowerTurned)
    rwa [hupper, hlower, set, Bool.toNat_true, List.length_map] at h
  have hoverflow : result.2.flags.overflow = true ↔
      ¬FitsSigned bytes.length (signed upper + signed (complement lower) + 1) := by
    have h := cpu.overflow_pass hturned
    rwa [hupper, hlower, set, Bool.toNat_true, List.length_map] at h
  have hsum : unsigned result.1 < 256 ^ bytes.length := by
    have h := unsigned_lt result.1
    rwa [length_pass, List.length_map] at h
  have hcomplement := unsigned_complement lower
  have hsigned := signed_complement (mt List.map_eq_nil_iff.mp filled : lower ≠ [])
  rw [List.length_map] at hcomplement
  have hborrow : result.2.flags.carry = false ∧ unsigned upper < unsigned lower ∧
        (unsigned result.1 : Int) =
          (unsigned upper - unsigned lower : Int) + (256 ^ bytes.length : Nat) ∨
      result.2.flags.carry = true ∧ unsigned lower ≤ unsigned upper ∧
        (unsigned result.1 : Int) = unsigned upper - unsigned lower := by
    cases hcarry : result.2.flags.carry with
    | false =>
      rw [hcarry, Bool.toNat_false] at hvalue
      exact .inl ⟨rfl, by omega, by omega⟩
    | true =>
      rw [hcarry, Bool.toNat_true] at hvalue
      exact .inr ⟨rfl, by omega, by omega⟩
  refine ⟨?_, ?_, ?_⟩
  · rcases hborrow with ⟨_, _, hborrowed⟩ | ⟨_, _, hexact⟩
    · rw [← Int.add_emod_right, ← hborrowed, Int.emod_eq_of_lt (by omega) (by omega)]
    · rw [← hexact, Int.emod_eq_of_lt (by omega) (by omega)]
  · rcases hborrow with ⟨hcarry, hless, _⟩ | ⟨hcarry, hle, _⟩
    · rw [hcarry]
      exact iff_of_false nofun (Nat.not_le_of_lt hless)
    · exact iff_of_true hcarry hle
  · have hsigns : signed upper + (-1 - signed lower) + 1 = signed upper - signed lower := by omega
    rw [hoverflow, hsigned, hsigns]

end Cpu

namespace Machine

variable {σ : Type} [Bus σ]

/-! ## The program -/

/-- Loads the first operand of each pair and executes an instruction on the second; gives the
    accumulators. -/
def pass (m : Machine σ) (mnemonic : Mnemonic) :
    List (Operand × Operand) → List UInt8 × Machine σ
  | [] => ([], m)
  | (upper, lower) :: rest =>
    let next := (m.execute .lda upper).execute mnemonic lower
    let (accumulators, last) := next.pass mnemonic rest
    (next.cpu.a :: accumulators, last)

/-- An operand is a byte that is read without any effect. -/
def Shows (bus : σ) (operand : Operand) (value : UInt8) : Prop :=
  ∀ cpu, (Machine.mk cpu bus).load operand = (value, ⟨cpu, bus⟩)

end Machine

/-- Two bytes that stand one below the other, and the operands that they are read from. -/
structure Column {σ : Type} [Bus σ] (bus : σ) where
  upper : UInt8
  lower : UInt8
  upperAt : Operand
  lowerAt : Operand
  shows_upper : Machine.Shows bus upperAt upper
  shows_lower : Machine.Shows bus lowerAt lower

namespace Column

variable {σ : Type} [Bus σ]

/-- Two bytes in the program itself. -/
def immediate (bus : σ) (upper lower : UInt8) : Column bus :=
  ⟨upper, lower, .immediate upper, .immediate lower, fun _ => rfl, fun _ => rfl⟩

/-- Two bytes in flat RAM. -/
def inMemory (memory : FlatMemory) (upperAt lowerAt : UInt16) : Column memory :=
  ⟨memory.peek upperAt, memory.peek lowerAt, .address upperAt, .address lowerAt,
    fun _ => rfl, fun _ => rfl⟩

variable {bus : σ}

def bytes (column : Column bus) : UInt8 × UInt8 := (column.upper, column.lower)

def operands (column : Column bus) : Operand × Operand := (column.upperAt, column.lowerAt)

end Column

namespace Machine

variable {σ : Type} [Bus σ] {bus : σ}

theorem consume_shown {operand : Operand} {value : UInt8} (shown : Shows bus operand value)
    (cpu : Cpu) (f : Cpu → UInt8 → Cpu) :
    (Machine.mk cpu bus).consume operand f = ⟨f cpu value, bus⟩ := by
  unfold consume
  rw [shown cpu]
  rfl

theorem adds_column (cpu : Cpu) (column : Column bus) :
    ((Machine.mk cpu bus).execute .lda column.upperAt).execute .adc column.lowerAt =
      ⟨cpu.addBytes column.bytes.1 column.bytes.2, bus⟩ := by
  show ((Machine.mk cpu bus).consume column.upperAt Cpu.setA).consume column.lowerAt Cpu.add = _
  rw [consume_shown column.shows_upper, consume_shown column.shows_lower]
  rfl

theorem subtracts_column (cpu : Cpu) (column : Column bus) :
    ((Machine.mk cpu bus).execute .lda column.upperAt).execute .sbc column.lowerAt =
      let turned := Cpu.lowerTurned column.bytes
      ⟨cpu.addBytes turned.1 turned.2, bus⟩ := by
  show ((Machine.mk cpu bus).consume column.upperAt Cpu.setA).consume column.lowerAt
    (fun cpu value => cpu.add (~~~value)) = _
  rw [consume_shown column.shows_upper, consume_shown column.shows_lower]
  rfl

/-- If each column adds two bytes of it, a pass adds them all. -/
theorem pass_columns {mnemonic : Mnemonic} {bytes : Column bus → UInt8 × UInt8}
    (adds : ∀ cpu column, ((Machine.mk cpu bus).execute .lda column.upperAt).execute mnemonic
      column.lowerAt = ⟨cpu.addBytes (bytes column).1 (bytes column).2, bus⟩)
    (cpu : Cpu) (columns : List (Column bus)) :
    (Machine.mk cpu bus).pass mnemonic (columns.map (·.operands)) =
      ((cpu.pass (columns.map bytes)).1, ⟨(cpu.pass (columns.map bytes)).2, bus⟩) := by
  induction columns generalizing cpu with
  | nil => rfl
  | cons column columns ih =>
    rw [List.map_cons, List.map_cons, Column.operands, pass, adds, ih]
    rfl

/-- A pass with ADC after CLC leaves the bytes of the sum in the accumulators, the carry says that
    the sum needs another byte, and the overflow flag that the signed sum needs one. A pass with SBC
    after SEC leaves the bytes of the difference, the carry says that nothing was borrowed, and the
    overflow flag that the signed difference needs another byte. -/
theorem sums_and_differences (cpu : Cpu) (bus : σ) (columns : List (Column bus))
    (filled : columns ≠ []) :
    let size := columns.length
    let upper := columns.map (·.upper)
    let lower := columns.map (·.lower)
    let operands := columns.map (·.operands)
    let sum := ((Machine.mk cpu bus).execute .clc .implied).pass .adc operands
    let difference := ((Machine.mk cpu bus).execute .sec .implied).pass .sbc operands
    (sum.1.length = size ∧
      unsigned sum.1 = (unsigned upper + unsigned lower) % 256 ^ size ∧
      (sum.2.cpu.flags.carry = true ↔ 256 ^ size ≤ unsigned upper + unsigned lower) ∧
      (sum.2.cpu.flags.overflow = true ↔ ¬FitsSigned size (signed upper + signed lower))) ∧
    (difference.1.length = size ∧
      (unsigned difference.1 : Int) =
        (unsigned upper - unsigned lower : Int) % (256 ^ size : Nat) ∧
      (difference.2.cpu.flags.carry = true ↔ unsigned lower ≤ unsigned upper) ∧
      (difference.2.cpu.flags.overflow = true ↔
        ¬FitsSigned size (signed upper - signed lower))) := by
  intro size upper lower operands sum difference
  have hsize : (columns.map Column.bytes).length = size := List.length_map _
  have hupper : (columns.map Column.bytes).map Prod.fst = upper := List.map_map
  have hlower : (columns.map Column.bytes).map Prod.snd = lower := List.map_map
  have hfilled : columns.map Column.bytes ≠ [] := mt List.map_eq_nil_iff.mp filled
  constructor
  · let start : Cpu := { cpu with flags := { cpu.flags with carry := false } }
    have hsum : sum = ((start.pass (columns.map Column.bytes)).1,
        ⟨(start.pass (columns.map Column.bytes)).2, bus⟩) := pass_columns adds_column start columns
    have clear : start.flags.carry = false := rfl
    have hadds := Cpu.pass_adds clear hfilled
    rw [hsize, hupper, hlower] at hadds
    rw [hsum]
    exact ⟨(start.length_pass _).trans hsize, hadds⟩
  · let start : Cpu := { cpu with flags := { cpu.flags with carry := true } }
    have hdifference : difference = ((start.pass _).1, ⟨(start.pass _).2, bus⟩) :=
      pass_columns subtracts_column start columns
    have hturned : columns.map (fun column => Cpu.lowerTurned column.bytes) =
        (columns.map Column.bytes).map Cpu.lowerTurned := by
      rw [List.map_map]
      rfl
    have set : start.flags.carry = true := rfl
    have hsubtracts := Cpu.pass_subtracts set hfilled
    rw [hsize, hupper, hlower] at hsubtracts
    rw [hdifference, hturned]
    exact ⟨(start.length_pass _).trans ((List.length_map _).trans hsize), hsubtracts⟩

/-- Memory with nothing in it. -/
def blankMemory : FlatMemory := {}

/-- $7F00 above $FF00, with the low bytes in memory and the high ones in the program. -/
def highAboveNegative : List (Column blankMemory) :=
  [.inMemory blankMemory 0x10 0x20, .immediate blankMemory 0x7F 0xFF]

/-- With the decimal flag set, $7F00 and $FF00 add up to $7E00 with a carry. Their difference, with
    a borrow, is $8000, and the signed one does not fit. -/
theorem sums_and_differences_of_highAboveNegative :
    let m : Machine FlatMemory := ⟨{ flags := { decimal := true } }, blankMemory⟩
    let operands := highAboveNegative.map (·.operands)
    let sum := (m.execute .clc .implied).pass .adc operands
    let difference := (m.execute .sec .implied).pass .sbc operands
    highAboveNegative ≠ [] ∧
    (sum.1.length = 2 ∧ unsigned sum.1 = 0x7E00 ∧ sum.2.cpu.flags.carry = true ∧
      sum.2.cpu.flags.overflow = false) ∧
    (difference.1.length = 2 ∧ unsigned difference.1 = 0x8000 ∧
      difference.2.cpu.flags.carry = false ∧ difference.2.cpu.flags.overflow = true) := by
  intro m operands sum difference
  have filled : highAboveNegative ≠ [] := by simp [highAboveNegative]
  obtain ⟨⟨hlength, hsum, hcarry, hoverflow⟩, hlength', hdifference, hborrow, hoverflow'⟩ :=
    sums_and_differences { flags := { decimal := true } } blankMemory highAboveNegative filled
  refine ⟨filled, ⟨hlength, hsum, hcarry.mpr (by decide), ?_⟩,
    hlength', Int.ofNat_inj.mp hdifference, ?_, hoverflow'.mpr (by decide)⟩
  · exact Bool.eq_false_iff.mpr (mt hoverflow.mp (by decide))
  · exact Bool.eq_false_iff.mpr (mt hborrow.mp (by decide))

end Machine

end Nes
