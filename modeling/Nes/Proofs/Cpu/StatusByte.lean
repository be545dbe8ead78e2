/-
  The status register as a byte, and the status bytes on the stack.

  Model (read this before the theorems). The CPU keeps six flags and makes a byte of them only when
  somebody looks. Here a register of eight bits stands beside the CPU. It is changed as hardware
  changes a register, with masks that set or clear single bits (`StatusByte.put`), and PLP and RTI
  load it with whatever is on the stack. Nothing in its definition says that bits 4 and 5 are out of
  reach. `toByte_register` says that it stays equal to the flags, through every reset, every
  request, every step and every change of the bus from outside. So what the flags cannot say, that
  bit 5 is always set and bit 4 never, holds of the register.

  Pushes. A step pushes a status byte when it enters a handler or executes PHP. Who pushes it
  (`Machine.pusher?`) is read off the interrupt that is serviced, the byte (`Machine.statusPush?`)
  off the writes of the step. A BRK that was executed is serviced at a later boundary, if no NMI
  comes in between; it is the interrupt that is serviced which decides.
-/
import Mathlib.Data.Fintype.Basic
import Nes.Proofs.Cpu.Laps
import Nes.Proofs.Cpu.Writes

namespace Nes

/-! ## A register of eight bits -/

/-- The bits of the register that are flags. -/
inductive Flag
  | negative
  | overflow
  | decimal
  | interrupt
  | zero
  | carry

/-- Where a flag stands in the register. -/
def Flag.mask : Flag → UInt8
  | negative => 0x80
  | overflow => 0x40
  | decimal => 0x08
  | interrupt => 0x04
  | zero => 0x02
  | carry => 0x01

/-- Sets or clears one flag. -/
def Flags.put (f : Flags) : Flag → Bool → Flags
  | .negative, on => { f with negative := on }
  | .overflow, on => { f with overflow := on }
  | .decimal, on => { f with decimal := on }
  | .interrupt, on => { f with interrupt := on }
  | .zero, on => { f with zero := on }
  | .carry, on => { f with carry := on }

namespace StatusByte

/-- The bit that tells PHP and BRK from an interrupt. -/
def breakMask : UInt8 := 0x10

/-- The bit that always reads as set. -/
def unusedMask : UInt8 := 0x20

/-- The register after power-on. -/
def initial : UInt8 := Flag.interrupt.mask ||| unusedMask

/-- Sets or clears the bits of a mask. -/
def put (p mask : UInt8) (on : Bool) : UInt8 := if on then p ||| mask else p &&& ~~~mask

/-- The carry bit. -/
def carry (p : UInt8) : UInt8 := p &&& Flag.carry.mask

/-- The byte that is pushed. -/
def pushed (p : UInt8) (brk : Bool) : UInt8 := put (p ||| unusedMask) breakMask brk

/-- The register that is made of a pulled byte. -/
def pulled (value : UInt8) : UInt8 := value &&& ~~~breakMask ||| unusedMask

/-- Zero and negative as an 8-bit result sets them. -/
def result (p value : UInt8) : UInt8 :=
  put (put p Flag.zero.mask (value == 0)) Flag.negative.mask (value &&& 0x80 != 0)

/-- A shift or rotation of `value` to the left gave `shifted`. -/
def left (p value shifted : UInt8) : UInt8 :=
  result (put p Flag.carry.mask (value &&& 0x80 != 0)) shifted

/-- A shift or rotation of `value` to the right gave `shifted`. -/
def right (p value shifted : UInt8) : UInt8 :=
  result (put p Flag.carry.mask (value &&& 0x01 != 0)) shifted

/-- An addition to the accumulator `a`. -/
def add (p a value : UInt8) : UInt8 :=
  let sum := a.toNat + value.toNat + (carry p).toNat
  let total := UInt8.ofNat sum
  result (put (put p Flag.carry.mask (0xFF < sum)) Flag.overflow.mask
    (~~~(a ^^^ value) &&& (a ^^^ total) &&& 0x80 != 0)) total

/-- A rotation that takes carry and overflow from bits 6 and 5 of its result. -/
def rotate (p shifted : UInt8) : UInt8 :=
  let p := put (result p shifted) Flag.carry.mask (shifted &&& 0x40 != 0)
  put p Flag.overflow.mask ((shifted >>> 6 ^^^ shifted >>> 5) &&& 0x01 != 0)

/-- A comparison with a register. -/
def compare (p register value : UInt8) : UInt8 :=
  result (put p Flag.carry.mask (value ≤ register)) (register - value)

end StatusByte

/-! ## The register and the flags -/

theorem Flags.toByte_put (f : Flags) (flag : Flag) (on : Bool) :
    (f.put flag on).toByte = StatusByte.put f.toByte flag.mask on := by
  obtain ⟨negative, overflow, decimal, interrupt, zero, carry⟩ := f
  cases flag <;> revert negative overflow decimal interrupt zero carry on <;> decide +kernel

theorem toByte_initial : ({} : Flags).toByte = StatusByte.initial := by decide

theorem Flags.toByte_pushed (f : Flags) (brk : Bool) :
    f.pushed brk = StatusByte.pushed f.toByte brk := by
  obtain ⟨negative, overflow, decimal, interrupt, zero, carry⟩ := f
  revert negative overflow decimal interrupt zero carry brk
  decide +kernel

theorem Flags.carry_toByte (f : Flags) : StatusByte.carry f.toByte = f.carryByte := by
  obtain ⟨negative, overflow, decimal, interrupt, zero, carry⟩ := f
  revert negative overflow decimal interrupt zero carry
  decide +kernel

/-- Bits 4 and 5 of the flags as a byte, as they are pushed or read. -/
theorem Flags.bits_pushed (f : Flags) (brk : Bool) :
    bit (f.pushed brk) 5 = true ∧ bit (f.pushed brk) 4 = brk := by
  obtain ⟨negative, overflow, decimal, interrupt, zero, carry⟩ := f
  revert negative overflow decimal interrupt zero carry brk
  decide +kernel

/-- Whatever byte is pulled, the register and the flags are the same again. -/
theorem Flags.toByte_pulled (value : UInt8) :
    (Flags.pulled value).toByte = StatusByte.pulled value := by
  have h : ∀ n : Fin 256, (Flags.pulled (.ofFin n)).toByte = StatusByte.pulled (.ofFin n) := by
    decide +kernel
  exact h value.toFin

theorem signBit_eq (value : UInt8) : signBit value = (value &&& 0x80 != 0) := by
  have h : ∀ n : Fin 256, signBit (.ofFin n) = (UInt8.ofFin n &&& 0x80 != 0) := by decide +kernel
  exact h value.toFin

theorem bit_zero_eq (value : UInt8) : bit value 0 = (value &&& 0x01 != 0) := by
  have h : ∀ n : Fin 256, bit (.ofFin n) 0 = (UInt8.ofFin n &&& 0x01 != 0) := by decide +kernel
  exact h value.toFin

theorem bit_six_eq (value : UInt8) : bit value 6 = (value &&& 0x40 != 0) := by
  have h : ∀ n : Fin 256, bit (.ofFin n) 6 = (UInt8.ofFin n &&& 0x40 != 0) := by decide +kernel
  exact h value.toFin

theorem bits_six_five_eq (value : UInt8) :
    (bit value 6 != bit value 5) = ((value >>> 6 ^^^ value >>> 5) &&& 0x01 != 0) := by
  have h : ∀ n : Fin 256, (bit (.ofFin n) 6 != bit (.ofFin n) 5) =
      ((UInt8.ofFin n >>> 6 ^^^ UInt8.ofFin n >>> 5) &&& 0x01 != 0) := by decide +kernel
  exact h value.toFin

/-- Two numbers of one sign have a sum of the other sign, in one formula. -/
theorem overflow_eq (a value total : UInt8) :
    (signBit a == signBit value && signBit a != signBit total) =
      (~~~(a ^^^ value) &&& (a ^^^ total) &&& 0x80 != 0) := by
  have top : ∀ byte : UInt8, signBit byte = byte.toBitVec.getLsbD 7 := by
    have h : ∀ n : Fin 256, signBit (.ofFin n) = (UInt8.ofFin n).toBitVec.getLsbD 7 := by
      decide +kernel
    exact fun byte => h byte.toFin
  rw [← signBit_eq, top, top, top, top, UInt8.toBitVec_and, UInt8.toBitVec_not,
    UInt8.toBitVec_xor, UInt8.toBitVec_xor, BitVec.getLsbD_and, BitVec.getLsbD_not,
    BitVec.getLsbD_xor, BitVec.getLsbD_xor]
  cases a.toBitVec.getLsbD 7 <;> cases value.toBitVec.getLsbD 7 <;>
    cases total.toBitVec.getLsbD 7 <;> rfl

namespace Flags

variable (f : Flags)

theorem toByte_result (value : UInt8) :
    (f.result value).toByte = StatusByte.result f.toByte value := by
  show ((f.put .zero (value == 0)).put .negative (signBit value)).toByte = _
  rw [toByte_put, toByte_put, signBit_eq]
  rfl

theorem toByte_left (value shifted : UInt8) :
    ({ f with carry := signBit value }.result shifted).toByte =
      StatusByte.left f.toByte value shifted := by
  show ((f.put .carry (signBit value)).result shifted).toByte = _
  rw [toByte_result, toByte_put, signBit_eq]
  rfl

theorem toByte_right (value shifted : UInt8) :
    ({ f with carry := bit value 0 }.result shifted).toByte =
      StatusByte.right f.toByte value shifted := by
  show ((f.put .carry (bit value 0)).result shifted).toByte = _
  rw [toByte_result, toByte_put, bit_zero_eq]
  rfl

theorem toByte_asl (value : UInt8) :
    (f.asl value).2.toByte = StatusByte.left f.toByte value (value <<< 1) :=
  toByte_left f value _

theorem toByte_lsr (value : UInt8) :
    (f.lsr value).2.toByte = StatusByte.right f.toByte value (value >>> 1) :=
  toByte_right f value _

theorem toByte_rol (value : UInt8) :
    (f.rol value).2.toByte =
      StatusByte.left f.toByte value (value <<< 1 ||| StatusByte.carry f.toByte) := by
  rw [carry_toByte]
  exact toByte_left f value _

theorem toByte_ror (value : UInt8) :
    (f.ror value).2.toByte =
      StatusByte.right f.toByte value (value >>> 1 ||| StatusByte.carry f.toByte <<< 7) := by
  rw [carry_toByte]
  exact toByte_right f value _

theorem toByte_compare (register value : UInt8) :
    (f.compare register value).toByte = StatusByte.compare f.toByte register value := by
  show ((f.put .carry (value ≤ register)).result (register - value)).toByte = _
  rw [toByte_result, toByte_put]
  rfl

end Flags

theorem Cpu.toByte_add (cpu : Cpu) (value : UInt8) :
    (cpu.add value).flags.toByte = StatusByte.add cpu.flags.toByte cpu.a value := by
  have hcarry : (StatusByte.carry cpu.flags.toByte).toNat = cpu.flags.carry.toNat := by
    rw [Flags.carry_toByte]
    unfold Flags.carryByte
    cases cpu.flags.carry <;> rfl
  unfold StatusByte.add
  dsimp only
  rw [hcarry, ← overflow_eq, ← Flags.toByte_put, ← Flags.toByte_put, ← Flags.toByte_result]
  rfl

theorem Cpu.toByte_arr (cpu : Cpu) (value : UInt8) :
    (cpu.arr value).flags.toByte = StatusByte.rotate cpu.flags.toByte
      ((cpu.a &&& value) >>> 1 ||| StatusByte.carry cpu.flags.toByte <<< 7) := by
  rw [Flags.carry_toByte]
  unfold StatusByte.rotate
  dsimp only
  rw [← bit_six_eq, ← bits_six_five_eq, ← Flags.toByte_result, ← Flags.toByte_put,
    ← Flags.toByte_put]
  rfl

/-- The flags of a result whose top bit goes to the carry as well. -/
theorem Flags.toByte_anc (f : Flags) (value : UInt8) :
    ({ f.result value with carry := signBit value } : Flags).toByte =
      StatusByte.put (StatusByte.result f.toByte value) Flag.carry.mask
        (value &&& 0x80 != 0) := by
  rw [← signBit_eq, ← Flags.toByte_result, ← Flags.toByte_put]
  rfl

/-- The flags of BIT: zero from the accumulator, overflow and negative from the operand. -/
theorem Flags.toByte_bit (f : Flags) (zero : Bool) (value : UInt8) :
    ({ f with zero, overflow := bit value 6, negative := signBit value } : Flags).toByte =
      StatusByte.put
        (StatusByte.put (StatusByte.put f.toByte Flag.zero.mask zero) Flag.overflow.mask
          (value &&& 0x40 != 0))
        Flag.negative.mask (value &&& 0x80 != 0) := by
  rw [← bit_six_eq, ← signBit_eq, ← Flags.toByte_put, ← Flags.toByte_put, ← Flags.toByte_put]
  rfl

/-- The flags of a shift already are those of its result. -/
theorem Flags.toByte_asr (f : Flags) (value : UInt8) :
    (f.lsr value).2.toByte = StatusByte.result
      (StatusByte.right f.toByte value (value >>> 1)) (value >>> 1) := by
  rw [← Flags.toByte_lsr, ← Flags.toByte_result]
  rfl

/-! ## The register through instructions and steps -/

namespace Machine

variable {σ : Type} [Bus σ]

/-- What an instruction makes of the register `p`. -/
def executeStatus (m : Machine σ) (p : UInt8) (operand : Operand) : Mnemonic → UInt8
  | .lda | .ldx | .ldy | .lax => StatusByte.result p (m.load operand).1
  | .tax | .tay => StatusByte.result p m.cpu.a
  | .tsx => StatusByte.result p m.cpu.s
  | .txa => StatusByte.result p m.cpu.x
  | .tya => StatusByte.result p m.cpu.y
  | .pla => StatusByte.result p m.pull.1
  | .plp | .rti => StatusByte.pulled m.pull.1
  | .asl =>
    let value := (m.load operand).1
    StatusByte.left p value (value <<< 1)
  | .lsr =>
    let value := (m.load operand).1
    StatusByte.right p value (value >>> 1)
  | .rol =>
    let value := (m.load operand).1
    StatusByte.left p value (value <<< 1 ||| StatusByte.carry p)
  | .ror =>
    let value := (m.load operand).1
    StatusByte.right p value (value >>> 1 ||| StatusByte.carry p <<< 7)
  | .and => StatusByte.result p (m.cpu.a &&& (m.load operand).1)
  | .eor => StatusByte.result p (m.cpu.a ^^^ (m.load operand).1)
  | .ora => StatusByte.result p (m.cpu.a ||| (m.load operand).1)
  | .bit =>
    let value := (m.load operand).1
    let p := StatusByte.put p Flag.zero.mask (m.cpu.a &&& value == 0)
    let p := StatusByte.put p Flag.overflow.mask (value &&& 0x40 != 0)
    StatusByte.put p Flag.negative.mask (value &&& 0x80 != 0)
  | .adc => StatusByte.add p m.cpu.a (m.load operand).1
  | .sbc => StatusByte.add p m.cpu.a (~~~(m.load operand).1)
  | .cmp => StatusByte.compare p m.cpu.a (m.load operand).1
  | .cpx => StatusByte.compare p m.cpu.x (m.load operand).1
  | .cpy => StatusByte.compare p m.cpu.y (m.load operand).1
  | .slo =>
    let value := (m.load operand).1
    let shifted := value <<< 1
    StatusByte.result (StatusByte.left p value shifted)
      ((m.store shifted operand).cpu.a ||| shifted)
  | .rla =>
    let value := (m.load operand).1
    let shifted := value <<< 1 ||| StatusByte.carry p
    StatusByte.result (StatusByte.left p value shifted)
      ((m.store shifted operand).cpu.a &&& shifted)
  | .sre =>
    let value := (m.load operand).1
    let shifted := value >>> 1
    StatusByte.result (StatusByte.right p value shifted)
      ((m.store shifted operand).cpu.a ^^^ shifted)
  | .rra =>
    let value := (m.load operand).1
    let shifted := value >>> 1 ||| StatusByte.carry p <<< 7
    StatusByte.add (StatusByte.right p value shifted) (m.store shifted operand).cpu.a shifted
  | .dcp =>
    let value := (m.load operand).1 - 1
    StatusByte.compare p (m.store value operand).cpu.a value
  | .isc =>
    let value := (m.load operand).1 + 1
    StatusByte.add p (m.store value operand).cpu.a (~~~value)
  | .anc =>
    let value := m.cpu.a &&& (m.load operand).1
    StatusByte.put (StatusByte.result p value) Flag.carry.mask (value &&& 0x80 != 0)
  | .asr =>
    let value := m.cpu.a &&& (m.load operand).1
    StatusByte.result (StatusByte.right p value (value >>> 1)) (value >>> 1)
  | .arr =>
    StatusByte.rotate p ((m.cpu.a &&& (m.load operand).1) >>> 1 ||| StatusByte.carry p <<< 7)
  | .sbx => StatusByte.compare p (m.cpu.a &&& m.cpu.x) (m.load operand).1
  | .inc => StatusByte.result p ((m.load operand).1 + 1)
  | .dec => StatusByte.result p ((m.load operand).1 - 1)
  | .inx => StatusByte.result p (m.cpu.x + 1)
  | .iny => StatusByte.result p (m.cpu.y + 1)
  | .dex => StatusByte.result p (m.cpu.x - 1)
  | .dey => StatusByte.result p (m.cpu.y - 1)
  | .clc => StatusByte.put p Flag.carry.mask false
  | .cld => StatusByte.put p Flag.decimal.mask false
  | .cli => StatusByte.put p Flag.interrupt.mask false
  | .clv => StatusByte.put p Flag.overflow.mask false
  | .sec => StatusByte.put p Flag.carry.mask true
  | .sed => StatusByte.put p Flag.decimal.mask true
  | .sei => StatusByte.put p Flag.interrupt.mask true
  | .sta | .stx | .sty | .sax | .txs | .pha | .php | .brk | .jmp | .jsr | .rts
  | .bcc | .bcs | .bne | .beq | .bpl | .bmi | .bvc | .bvs | .nop
  | .jam | .las | .sha | .shx | .shy | .shs | .xaa => p

/-- What an action makes of the register `p`. -/
def performStatus (m : Machine σ) (p : UInt8) : Action → UInt8
  | .reset | .interrupt _ _ _ => StatusByte.put p Flag.interrupt.mask true
  | .skip _ _ => p
  | .execute _ _ instruction operand _ => m.executeStatus p operand instruction.mnemonic

section
variable (m : Machine σ) (operand : Operand)

theorem cpu_load : (m.load operand).2.cpu = m.cpu := by
  cases operand <;> rfl

/-- The value, the flags and the accumulator after a change in place. -/
theorem modify_eq (f : Flags → UInt8 → UInt8 × Flags) :
    (m.modify operand f).1 = (f m.cpu.flags (m.load operand).1).1 ∧
      (m.modify operand f).2.cpu.flags = (f m.cpu.flags (m.load operand).1).2 ∧
      (m.modify operand f).2.cpu.a =
        (m.store (f m.cpu.flags (m.load operand).1).1 operand).cpu.a := by
  cases operand <;> exact ⟨rfl, rfl, rfl⟩

theorem flags_modify (f : Flags → UInt8 → UInt8 × Flags) :
    (m.modify operand f).2.cpu.flags = (f m.cpu.flags (m.load operand).1).2 :=
  (modify_eq m operand f).2.1

theorem toByte_consume (f : Cpu → UInt8 → Cpu) :
    (m.consume operand f).cpu.flags.toByte = (f m.cpu (m.load operand).1).flags.toByte := by
  show (f (m.load operand).2.cpu (m.load operand).1).flags.toByte = _
  rw [cpu_load]

omit [Bus σ] in
theorem flags_branch (mnemonic : Mnemonic) :
    (m.branch mnemonic operand).cpu.flags = m.cpu.flags := by
  unfold branch
  split <;> rfl

/-- An instruction that changes its operand in place and then works on the new value. -/
theorem toByte_combine (f : Flags → UInt8 → UInt8 × Flags) (g : Cpu → UInt8 → Cpu)
    (h : UInt8 → UInt8 → UInt8 → UInt8)
    (hg : ∀ cpu value, (g cpu value).flags.toByte = h cpu.flags.toByte cpu.a value) :
    (g (m.modify operand f).2.cpu (m.modify operand f).1).flags.toByte =
      h (f m.cpu.flags (m.load operand).1).2.toByte
        (m.store (f m.cpu.flags (m.load operand).1).1 operand).cpu.a
        (f m.cpu.flags (m.load operand).1).1 := by
  obtain ⟨hvalue, hflags, ha⟩ := modify_eq m operand f
  rw [hg, hvalue, hflags, ha]

theorem toByte_execute (mnemonic : Mnemonic) :
    (m.execute mnemonic operand).cpu.flags.toByte =
      m.executeStatus m.cpu.flags.toByte operand mnemonic := by
  have hcarry := m.cpu.flags.carry_toByte
  cases mnemonic with
  | lda | ldx | ldy | lax | and | eor | ora =>
    exact (toByte_consume m operand _).trans (Flags.toByte_result _ _)
  | adc => exact (toByte_consume m operand Cpu.add).trans (Cpu.toByte_add _ _)
  | sbc =>
    exact (toByte_consume m operand fun cpu value => cpu.add (~~~value)).trans
      (Cpu.toByte_add _ _)
  | cmp | cpx | cpy | sbx => exact (toByte_consume m operand _).trans (Flags.toByte_compare _ _ _)
  | tax | tay | tsx | txa | tya | inx | iny | dex | dey | pla =>
    exact Flags.toByte_result m.cpu.flags _
  | plp | rti => exact Flags.toByte_pulled m.pull.1
  | clc => exact Flags.toByte_put m.cpu.flags .carry false
  | cld => exact Flags.toByte_put m.cpu.flags .decimal false
  | cli => exact Flags.toByte_put m.cpu.flags .interrupt false
  | clv => exact Flags.toByte_put m.cpu.flags .overflow false
  | sec => exact Flags.toByte_put m.cpu.flags .carry true
  | sed => exact Flags.toByte_put m.cpu.flags .decimal true
  | sei => exact Flags.toByte_put m.cpu.flags .interrupt true
  | sta | stx | sty | sax | nop => cases operand <;> rfl
  | brk => exact congrArg Flags.toByte (request_flags _ _)
  | bcc | bcs | bne | beq | bpl | bmi | bvc | bvs =>
    exact congrArg Flags.toByte (flags_branch m operand _)
  | txs | pha | php | jmp | jsr | rts | jam | las | sha | shx | shy | shs | xaa => rfl
  | asl => exact (congrArg Flags.toByte (flags_modify m operand _)).trans (Flags.toByte_asl _ _)
  | lsr => exact (congrArg Flags.toByte (flags_modify m operand _)).trans (Flags.toByte_lsr _ _)
  | rol => exact (congrArg Flags.toByte (flags_modify m operand _)).trans (Flags.toByte_rol _ _)
  | ror => exact (congrArg Flags.toByte (flags_modify m operand _)).trans (Flags.toByte_ror _ _)
  | inc | dec =>
    exact (congrArg Flags.toByte (flags_modify m operand _)).trans (Flags.toByte_result _ _)
  | slo =>
    refine (toByte_combine m operand Flags.asl (fun cpu value => cpu.setA (cpu.a ||| value))
      (fun p a value => StatusByte.result p (a ||| value))
      fun cpu value => Flags.toByte_result _ _).trans ?_
    rw [Flags.toByte_asl]
    rfl
  | rla =>
    refine (toByte_combine m operand Flags.rol (fun cpu value => cpu.setA (cpu.a &&& value))
      (fun p a value => StatusByte.result p (a &&& value))
      fun cpu value => Flags.toByte_result _ _).trans ?_
    rw [Flags.toByte_rol, hcarry]
    dsimp only [executeStatus]
    rw [hcarry]
    rfl
  | sre =>
    refine (toByte_combine m operand Flags.lsr (fun cpu value => cpu.setA (cpu.a ^^^ value))
      (fun p a value => StatusByte.result p (a ^^^ value))
      fun cpu value => Flags.toByte_result _ _).trans ?_
    rw [Flags.toByte_lsr]
    rfl
  | rra =>
    refine (toByte_combine m operand Flags.ror Cpu.add StatusByte.add Cpu.toByte_add).trans ?_
    rw [Flags.toByte_ror, hcarry]
    dsimp only [executeStatus]
    rw [hcarry]
    rfl
  | dcp =>
    exact toByte_combine m operand (fun flags value => (value - 1, flags))
      (fun cpu value => { cpu with flags := cpu.flags.compare cpu.a value }) StatusByte.compare
      fun cpu value => Flags.toByte_compare _ _ _
  | isc =>
    exact toByte_combine m operand (fun flags value => (value + 1, flags))
      (fun cpu value => cpu.add (~~~value)) (fun p a value => StatusByte.add p a (~~~value))
      fun cpu value => Cpu.toByte_add _ _
  | bit =>
    exact (toByte_consume m operand fun cpu value =>
      { cpu with
        flags := { cpu.flags with
          zero := cpu.a &&& value == 0
          overflow := bit value 6
          negative := signBit value } }).trans
      (Flags.toByte_bit m.cpu.flags _ _)
  | anc =>
    exact (toByte_consume m operand fun cpu value =>
      { cpu.setA (cpu.a &&& value) with
        flags := { cpu.flags.result (cpu.a &&& value) with
          carry := signBit (cpu.a &&& value) } }).trans (Flags.toByte_anc m.cpu.flags _)
  | asr =>
    refine (toByte_consume m operand fun cpu value =>
      { cpu with
        a := (cpu.flags.lsr (cpu.a &&& value)).1
        flags := (cpu.flags.lsr (cpu.a &&& value)).2 }).trans ?_
    exact Flags.toByte_asr m.cpu.flags (m.cpu.a &&& (m.load operand).1)
  | arr => exact (toByte_consume m operand Cpu.arr).trans (Cpu.toByte_arr m.cpu _)

theorem toByte_perform (action : Action) :
    (m.perform action).2.cpu.flags.toByte = m.performStatus m.cpu.flags.toByte action := by
  cases action with
  | reset => exact Flags.toByte_put m.cpu.flags .interrupt true
  | interrupt => exact Flags.toByte_put m.cpu.flags .interrupt true
  | skip => rfl
  | execute _ _ instruction operand _ => exact toByte_execute m operand instruction.mnemonic

theorem flags_operand (mode : Mode) : (m.operand mode).2.cpu.flags = m.cpu.flags := by
  cases mode <;> rfl

/-- Looking for what to do next changes no flag. -/
theorem flags_next : m.next.2.cpu.flags = m.cpu.flags := by
  rw [← (poll_brk m).1]
  unfold next
  dsimp only
  generalize m.poll = m
  cases m.cpu.due with
  | some action => rfl
  | none =>
    dsimp only
    -- which of the 256 instructions it is does not matter here
    generalize Instruction.decode m.fetch.1 = instruction
    split
    · exact flags_operand m.fetch.2 instruction.mode
    · rfl

end

/-! ## Everything that can happen to a CPU -/

/-- What can happen to a CPU and its bus. -/
inductive Event (σ : Type)
  | reset (kind : ResetKind)
  | request (kind : Interrupt)
  | step
  /-- Something else works on the bus: memory, interrupt lines, the cycles to wait for. -/
  | outside (change : σ → σ)

/-- The machine after an event. -/
def after (m : Machine σ) : Event σ → Machine σ
  | .reset kind => m.reset kind
  | .request kind => m.mapCpu (·.request kind)
  | .step => m.step.2
  | .outside change => ⟨m.cpu, change m.bus⟩

/-- What an event makes of the register `p`. -/
def eventStatus (m : Machine σ) (p : UInt8) : Event σ → UInt8
  | .reset .power => StatusByte.put StatusByte.initial Flag.interrupt.mask true
  | .reset .soft => StatusByte.put p Flag.interrupt.mask true
  | .request _ => p
  | .step => m.next.2.performStatus p m.next.1
  | .outside _ => p

/-- The register after a history that it starts with `p`. -/
def register (m : Machine σ) (p : UInt8) : List (Event σ) → UInt8
  | [] => p
  | event :: events => (m.after event).register (m.eventStatus p event) events

theorem toByte_after (m : Machine σ) (event : Event σ) :
    (m.after event).cpu.flags.toByte = m.eventStatus m.cpu.flags.toByte event := by
  cases event with
  | reset kind =>
    cases kind with
    | power =>
      show (({} : Flags).put .interrupt true).toByte = StatusByte.put _ _ true
      rw [Flags.toByte_put, toByte_initial]
    | soft => exact Flags.toByte_put m.cpu.flags .interrupt true
  | request kind => exact congrArg Flags.toByte (request_flags m.cpu kind)
  | step =>
    show (m.next.2.perform m.next.1).2.cpu.flags.toByte = m.next.2.performStatus _ m.next.1
    rw [toByte_perform, flags_next]
  | outside => rfl

/-- The register and the flags never come apart. -/
theorem toByte_register (m : Machine σ) (events : List (Event σ)) :
    (events.foldl after m).cpu.flags.toByte = m.register m.cpu.flags.toByte events := by
  induction events generalizing m with
  | nil => rfl
  | cons event events ih =>
    rw [List.foldl_cons, ih, toByte_after]
    rfl

/-! ## Status bytes on the stack -/

/-- Who pushes a status byte. -/
inductive Pusher
  | php
  | brk
  | irq
  | nmi
deriving DecidableEq

/-- The interrupts whose handler is entered, as pushers. -/
def Pusher.of : Interrupt → Option Pusher
  | .brk => some brk
  | .irq => some irq
  | .nmi => some nmi
  | .none | .reset => none

/-- Who pushes a status byte in the next step, if anybody does: the interrupt that waits once the
    sources were asked, or PHP. -/
def pusher? (m : Machine σ) : Option Pusher :=
  match m.next.1 with
  | .interrupt _ _ _ => Pusher.of m.poll.cpu.pending
  | .execute _ _ instruction _ _ =>
    if instruction.mnemonic = .php then some .php else none
  | .reset | .skip _ _ => none

/-- A status byte that was pushed. -/
structure StatusPush where
  pusher : Pusher
  addr : UInt16
  value : UInt8

/-- The status byte that the next step pushes: it is the last byte that the step writes. -/
def statusPush? (m : Machine σ) : Option StatusPush :=
  match m.pusher?, m.stepWrites.getLast? with
  | some pusher, some (addr, value) => some ⟨pusher, addr, value⟩
  | _, _ => none

/-- The status bytes that are pushed in a history. -/
def statusPushes (m : Machine σ) : List (Event σ) → List StatusPush
  | [] => []
  | .step :: events => m.statusPush?.toList ++ (m.after .step).statusPushes events
  | event :: events => (m.after event).statusPushes events

/-- Whether the pushed copy has its B bit set. -/
def Pusher.setsBreak : Pusher → Bool
  | php | brk => true
  | irq | nmi => false

theorem Pusher.setsBreak_iff (pusher : Pusher) :
    pusher.setsBreak = true ↔ pusher = .php ∨ pusher = .brk := by
  cases pusher <;> decide

/-- A handler is entered for the interrupt that waits, which alone decides on the B bit. -/
theorem next_interrupt {m : Machine σ} {vector : UInt16} {brk : Bool} {cycles : Nat}
    (h : m.next.1 = .interrupt vector brk cycles) :
    ∃ pusher, Pusher.of m.poll.cpu.pending = some pusher ∧ pusher.setsBreak = brk := by
  unfold next at h
  dsimp only at h
  cases hdue : m.poll.cpu.due with
  | none =>
    rw [hdue] at h
    dsimp only at h
    generalize Instruction.decode m.poll.fetch.1 = instruction at h
    split at h <;> cases h
  | some action =>
    rw [hdue] at h
    change action = _ at h
    subst h
    unfold Cpu.due at hdue
    cases hpending : m.poll.cpu.pending with
    | none | reset => simp [hpending] at hdue
    | nmi =>
      rw [hpending] at hdue
      cases hdue
      exact ⟨.nmi, rfl, rfl⟩
    | irq =>
      rw [hpending] at hdue
      dsimp only at hdue
      split at hdue
      · cases hdue
      · cases hdue
        exact ⟨.irq, rfl, rfl⟩
    | brk =>
      rw [hpending] at hdue
      dsimp only at hdue
      split at hdue
      · cases hdue
      · cases hdue
        exact ⟨.brk, rfl, rfl⟩

/-- The status byte is the last one that its step writes, and the first one that can be pulled
    again. -/
theorem statusPush?_eq {m : Machine σ} {pusher : Pusher} (h : m.pusher? = some pusher) :
    m.statusPush? = some ⟨pusher, stackCell (m.step.2.cpu.s + 1),
      m.cpu.flags.pushed pusher.setsBreak⟩ := by
  have hstep : m.step.2 = (m.next.2.perform m.next.1).2 := rfl
  unfold statusPush?
  rw [h, stepWrites_eq, hstep, ← flags_next m]
  unfold pusher? at h
  cases haction : m.next.1 with
  | reset | skip => simp [haction] at h
  | interrupt vector brk cycles =>
    obtain ⟨waiting, hwaiting, hbrk⟩ := next_interrupt haction
    rw [haction] at h
    dsimp only at h
    rw [hwaiting] at h
    cases h
    rw [hbrk]
    have hs : (m.next.2.enter vector brk).cpu.s + 1 = m.next.2.cpu.s - 1 - 1 :=
      UInt8.sub_add_cancel _ _
    show some _ = some (StatusPush.mk _ (stackCell ((m.next.2.enter vector brk).cpu.s + 1)) _)
    rw [hs]
  | execute _ _ instruction operand _ =>
    rw [haction] at h
    dsimp only at h
    split at h
    · next hphp =>
      cases h
      have hs : (m.next.2.execute .php operand).cpu.s + 1 = m.next.2.cpu.s :=
        UInt8.sub_add_cancel _ _
      dsimp only [performed, perform]
      rw [hphp, hs]
      rfl
    · cases h

/-- A step in which nobody pushes a status byte writes nothing, or what its instruction writes. -/
theorem stepWrites_of_no_pusher {m : Machine σ} (h : m.pusher? = none) :
    m.stepWrites = [] ∨
      ∃ pc opcode instruction operand crossed,
        m.next.1 = .execute pc opcode instruction operand crossed ∧
          instruction.mnemonic ≠ .php ∧
          m.stepWrites = m.next.2.executed operand instruction.mnemonic := by
  rw [stepWrites_eq]
  unfold pusher? at h
  cases haction : m.next.1 with
  | reset | skip => exact .inl rfl
  | interrupt vector brk cycles =>
    obtain ⟨waiting, hwaiting, -⟩ := next_interrupt haction
    rw [haction] at h
    dsimp only at h
    rw [hwaiting] at h
    cases h
  | execute pc opcode instruction operand crossed =>
    rw [haction] at h
    refine .inr ⟨pc, opcode, instruction, operand, crossed, rfl, fun hphp => ?_, rfl⟩
    simp [hphp] at h

theorem bits_statusPushes (m : Machine σ) (events : List (Event σ)) (push : StatusPush)
    (h : push ∈ m.statusPushes events) :
    bit push.value 5 = true ∧
      (bit push.value 4 = true ↔ push.pusher = .php ∨ push.pusher = .brk) := by
  induction events generalizing m with
  | nil => cases h
  | cons event events ih =>
    cases event with
    | reset | request | outside => exact ih _ h
    | step =>
      rcases List.mem_append.mp h with h | h
      · cases hpusher : m.pusher? with
        | none => simp [statusPush?, hpusher] at h
        | some pusher =>
          rw [statusPush?_eq hpusher] at h
          cases List.mem_singleton.mp h
          obtain ⟨hunused, hbreak⟩ := m.cpu.flags.bits_pushed pusher.setsBreak
          refine ⟨hunused, ?_⟩
          rw [hbreak, pusher.setsBreak_iff]
      · exact ih _ h

/-! ## From power-on -/

/-- Whatever happens to a CPU and its bus from the start on, the register has bit 5 set and bit 4
    clear, and every status byte that was pushed has bit 5 set, and bit 4 exactly if PHP pushed it
    or a BRK was serviced. The next step pushes a status byte exactly if it has a pusher: the last
    byte it writes, to where the next pull finds it. All other steps write nothing, or what their
    instruction writes, and a reset writes nothing. -/
theorem status_byte_bits (bus : σ) (events : List (Event σ)) :
    let start : Machine σ := ⟨{}, bus⟩
    let m := events.foldl after start
    let p := start.register StatusByte.initial events
    (m.cpu.flags.toByte = p ∧ bit p 5 = true ∧ bit p 4 = false) ∧
      (∀ push ∈ start.statusPushes events, bit push.value 5 = true ∧
        (bit push.value 4 = true ↔ push.pusher = .php ∨ push.pusher = .brk)) ∧
      m.recorded.step.2.unrecorded = m.step.2 ∧
      (∀ pusher, m.pusher? = some pusher →
        m.statusPush? = some ⟨pusher, stackCell (m.step.2.cpu.s + 1),
          StatusByte.pushed p (pusher = .php ∨ pusher = .brk)⟩) ∧
      (m.pusher? = none → m.stepWrites = [] ∨
        ∃ pc opcode instruction operand crossed,
          m.next.1 = .execute pc opcode instruction operand crossed ∧
            instruction.mnemonic ≠ .php ∧
            m.stepWrites = m.next.2.executed operand instruction.mnemonic) ∧
      ∀ kind, (m.recorded.reset kind).writes = [] := by
  intro start m p
  have hregister : m.cpu.flags.toByte = p := by
    rw [toByte_register start events]
    exact congrArg (start.register · events) toByte_initial
  have hbits := m.cpu.flags.bits_pushed false
  refine ⟨⟨hregister, ?_, ?_⟩, bits_statusPushes start events, (step_unrecorded m.recorded).2,
    fun pusher h => ?_, stepWrites_of_no_pusher, fun kind => ?_⟩
  · rw [← hregister]
    exact hbits.1
  · rw [← hregister]
    exact hbits.2
  · rw [statusPush?_eq h, ← hregister, ← Flags.toByte_pushed]
    cases pusher <;> rfl
  · cases kind <;> rfl

end Machine
end Nes
