/-
  The bytes of an instruction, and where the next one starts.

  A step that services no interrupt reads the opcode and the operand bytes at consecutive addresses,
  as many as the table of opcodes says. Then a mode that goes through a pointer reads it
  (`Mode.pointers`), and all that is left is done at the address of the operand (`Mode.found`) or on
  the stack (`Mnemonic.WorksAt`). The program counter is behind the bytes that
  were read, but for jumps and taken branches (`pc_execute`).

  Addresses in page zero are given as remainders here, and the target of a branch as a sum of
  integers. The CPU adds bytes, and words with a sign in their high byte.
-/
import Nes.Proofs.Cpu.Boundaries
import Nes.Proofs.Cpu.Laps

namespace Nes

/-- The address of an access. -/
def Access.addr : Access → UInt16
  | read addr _ | write addr _ => addr

/-- Reads of bytes at consecutive addresses. The first address follows the last one. -/
def fetches (pc : UInt16) : List UInt8 → List Access
  | [] => []
  | byte :: bytes => .read pc byte :: fetches (pc + 1) bytes

/-- An address in page zero. -/
def pageZero (n : Nat) : UInt16 := UInt16.ofNat (n % 0x100)

/-- A byte as a number in two's complement. -/
def signedOffset (byte : UInt8) : Int :=
  if byte.toNat < 0x80 then byte.toNat else byte.toNat - 0x100

namespace Mode

/-- Where a pointer to the operand is read, low byte first. -/
def pointers (cpu : Cpu) : Mode → (bytes : List UInt8) → List UInt16
  | indirect, [lo, hi] => [word lo hi, word (lo + 1) hi]
  | indirectX, [byte] =>
    [pageZero (byte.toNat + cpu.x.toNat), pageZero (byte.toNat + cpu.x.toNat + 1)]
  | indirectY, [byte] => [pageZero byte.toNat, pageZero (byte.toNat + 1)]
  | _, _ => []

/-- The operand that the operand bytes and the bytes of a pointer stand for. The next instruction
    is at `next`. -/
def found (cpu : Cpu) (next : UInt16) : Mode → (bytes pointed : List UInt8) → Operand
  | accumulator, _, _ => .accumulator
  | immediate, [byte], _ => .immediate byte
  | zeroPage, [byte], _ => .address (pageZero byte.toNat)
  | zeroPageX, [byte], _ => .address (pageZero (byte.toNat + cpu.x.toNat))
  | zeroPageY, [byte], _ => .address (pageZero (byte.toNat + cpu.y.toNat))
  | absolute, [lo, hi], _ => .address (word lo hi)
  | absoluteX, [lo, hi], _ => .address (word lo hi + cpu.x.toUInt16)
  | absoluteY, [lo, hi], _ => .address (word lo hi + cpu.y.toUInt16)
  | indirect, _, [lo, hi] => .address (word lo hi)
  | indirectX, _, [lo, hi] => .address (word lo hi)
  | indirectY, _, [lo, hi] => .address (word lo hi + cpu.y.toUInt16)
  | relative, [byte], _ => .address (next + Operand.signed byte)
  | _, _, _ => .implied

end Mode

namespace Mnemonic

/-- The instructions that work on the stack. -/
def usesStack (mnemonic : Mnemonic) : Bool := mnemonic ∈ [pha, php, pla, plp, jsr, rts, rti]

/-- The branches. -/
def isBranch (mnemonic : Mnemonic) : Bool := mnemonic ∈ [bcc, bcs, bne, beq, bpl, bmi, bvc, bvs]

end Mnemonic

/-- An instruction works at the address of its operand, or on the stack. -/
def Mnemonic.WorksAt (mnemonic : Mnemonic) (operand : Operand) (addr : UInt16) : Prop :=
  operand = .address addr ∨ mnemonic.usesStack = true ∧ ∃ s, addr = stackCell s

/-- The address of a byte in page zero is formed in page zero. -/
def Mode.inPageZero (mode : Mode) : Bool := mode ∈ [zeroPage, zeroPageX, zeroPageY]

/-- The pointer to the operand is in page zero. -/
def Mode.throughPageZero (mode : Mode) : Bool := mode ∈ [indirectX, indirectY]

/-! ## Addresses -/

theorem toNat_pageZero (n : Nat) : (pageZero n).toNat = n % 0x100 := by
  have h : n % 0x100 < 0x100 := Nat.mod_lt n (by decide)
  show (UInt16.ofNat (n % 0x100)).toNat = n % 0x100
  rw [UInt16.toNat_ofNat']
  omega

theorem pageZero_lt (n : Nat) : (pageZero n).toNat < 0x100 := by
  rw [toNat_pageZero]
  exact Nat.mod_lt n (by decide)

theorem toUInt16_eq_pageZero (byte : UInt8) : byte.toUInt16 = pageZero byte.toNat := by
  have h := byte.toNat_lt
  apply UInt16.toNat_inj.mp
  rw [toNat_pageZero, UInt8.toNat_toUInt16]
  omega

theorem toUInt16_add (a b : UInt8) : (a + b).toUInt16 = pageZero (a.toNat + b.toNat) := by
  apply UInt16.toNat_inj.mp
  rw [toNat_pageZero, UInt8.toNat_toUInt16, UInt8.toNat_add]

theorem toUInt16_add_one (a : UInt8) (n : Nat) (h : a.toNat = n % 0x100) :
    (a + 1).toUInt16 = pageZero (n + 1) := by
  apply UInt16.toNat_inj.mp
  rw [toNat_pageZero, UInt8.toNat_toUInt16, UInt8.toNat_add, h]
  exact Nat.mod_add_mod n 256 1

theorem toNat_signed (byte : UInt8) : (Operand.signed byte).toNat =
    if byte.toNat < 0x80 then byte.toNat else byte.toNat + 0xFF00 := by
  have hbyte := byte.toNat_lt
  have hsign : signBit byte = true ↔ ¬byte.toNat < 0x80 := by
    unfold signBit
    rw [decide_eq_true_iff, UInt8.le_iff_toNat_le, Nat.not_lt]
    rfl
  unfold Operand.signed
  by_cases h : byte.toNat < 0x80
  · rw [if_pos h, if_neg (mt hsign.mp (not_not.mpr h)), UInt8.toNat_toUInt16]
  · rw [if_neg h, if_pos (hsign.mpr h), UInt16.toNat_add, UInt8.toNat_toUInt16]
    show (byte.toNat + 0xFF00) % 2 ^ 16 = byte.toNat + 0xFF00
    omega

/-- A branch goes as far as its offset says, with a sign. -/
theorem toNat_add_signed (next : UInt16) (byte : UInt8) :
    ((next + Operand.signed byte).toNat : Int) = (next.toNat + signedOffset byte) % 0x10000 := by
  have hbyte := byte.toNat_lt
  unfold signedOffset
  rw [UInt16.toNat_add, toNat_signed]
  split <;> omega

/-! ## The table of opcodes -/

theorem isBranch_of_branches {f : Flags} {mnemonic : Mnemonic} (h : f.branches mnemonic = true) :
    mnemonic.isBranch = true := by
  cases mnemonic with
  | bcc | bcs | bne | beq | bpl | bmi | bvc | bvs => rfl
  | _ => cases h

theorem not_mem_jumps {f : Flags} {mnemonic : Mnemonic} (h : f.branches mnemonic = true) :
    mnemonic ∉ [.jmp, .jsr, .rts, .rti, .brk] := by
  intro hmem
  simp only [List.mem_cons, List.not_mem_nil, or_false] at hmem
  rcases hmem with rfl | rfl | rfl | rfl | rfl <;> cases h

/-- Which modes the table of opcodes gives to branches, to BRK, and to the instructions that work on
    the stack. -/
theorem modes_decode (opcode : UInt8) :
    ((Instruction.decode opcode).mnemonic.isBranch = true →
      (Instruction.decode opcode).mode = .relative) ∧
    ((Instruction.decode opcode).mnemonic = .brk → (Instruction.decode opcode).mode = .implied) ∧
    ((Instruction.decode opcode).mode.inPageZero = true →
      (Instruction.decode opcode).mnemonic.usesStack = false) := by
  revert opcode
  refine Instruction.forall_decode (P := fun instruction =>
    (instruction.mnemonic.isBranch = true → instruction.mode = .relative) ∧
    (instruction.mnemonic = .brk → instruction.mode = .implied) ∧
    (instruction.mode.inPageZero = true → instruction.mnemonic.usesStack = false)) ?_
  decide +kernel

/-- A pointer in page zero is read in page zero, also where it ends. -/
theorem pointers_lt (cpu : Cpu) {mode : Mode} (h : mode.throughPageZero = true)
    (bytes : List UInt8) : ∀ addr ∈ mode.pointers cpu bytes, addr.toNat < 0x100 := by
  unfold Mode.pointers
  split
  · cases h
  · exact List.forall_mem_cons.mpr ⟨pageZero_lt _, List.forall_mem_singleton.mpr (pageZero_lt _)⟩
  · exact List.forall_mem_cons.mpr ⟨pageZero_lt _, List.forall_mem_singleton.mpr (pageZero_lt _)⟩
  · exact fun addr hmem => nomatch hmem

/-- The operand of a mode that stays in page zero is there. -/
theorem found_lt (cpu : Cpu) {mode : Mode} (h : mode.inPageZero = true) {next addr : UInt16}
    {bytes pointed : List UInt8} (hfound : mode.found cpu next bytes pointed = .address addr) :
    addr.toNat < 0x100 := by
  unfold Mode.found at hfound
  split at hfound <;> cases hfound
  all_goals first | exact pageZero_lt _ | cases h

namespace Machine

variable {σ : Type} [Bus σ]

/-! ## The operand -/

theorem accesses_operand (r : Machine (Recorded σ)) (mode : Mode) :
    ∃ bytes pointed,
      bytes.length = mode.operandLength ∧
      pointed.length = (mode.pointers r.cpu bytes).length ∧
      (r.operand mode).2.bus.accesses =
        (fetches r.cpu.pc bytes ++
          (mode.pointers r.cpu bytes).zipWith Access.read pointed).reverse ++ r.bus.accesses ∧
      (r.operand mode).2.cpu =
        { r.cpu with pc := r.cpu.pc + UInt16.ofNat mode.operandLength } ∧
      (r.operand mode).1.1 =
        mode.found r.cpu (r.cpu.pc + UInt16.ofNat mode.operandLength) bytes pointed := by
  have htwo : r.cpu.pc + 2 = r.cpu.pc + 1 + 1 := by grind
  cases mode with
  | implied | accumulator =>
    have hpc : r.cpu.pc + UInt16.ofNat 0 = r.cpu.pc := UInt16.add_zero _
    refine ⟨[], [], rfl, rfl, rfl, ?_, rfl⟩
    dsimp only [Mode.operandLength]
    rw [hpc]
    rfl
  | immediate | relative => exact ⟨[_], [], rfl, rfl, rfl, rfl, rfl⟩
  | zeroPage =>
    refine ⟨[_], [], rfl, rfl, rfl, rfl, ?_⟩
    exact congrArg Operand.address (toUInt16_eq_pageZero _)
  | zeroPageX | zeroPageY =>
    refine ⟨[_], [], rfl, rfl, rfl, rfl, ?_⟩
    exact congrArg Operand.address (toUInt16_add _ _)
  | absolute | absoluteX | absoluteY =>
    refine ⟨[_, _], [], rfl, rfl, rfl, ?_, rfl⟩
    show _ = { r.cpu with pc := r.cpu.pc + 2 }
    rw [htwo]
    rfl
  | indirect =>
    refine ⟨[r.fetch.1, r.fetch.2.fetch.1], [_, _], rfl, rfl, ?_, ?_, rfl⟩
    · have hword : r.fetchWord.1 = word r.fetch.1 r.fetch.2.fetch.1 := rfl
      have hhigh : word (r.fetch.1 + 1) r.fetch.2.fetch.1 =
          word (lowByte r.fetchWord.1 + 1) (highByte r.fetchWord.1) := by
        rw [hword, lowByte_word, highByte_word]
      dsimp only [Mode.pointers]
      rw [hhigh]
      rfl
    · show _ = { r.cpu with pc := r.cpu.pc + 2 }
      rw [htwo]
      rfl
  | indirectX =>
    refine ⟨[r.fetch.1], [_, _], rfl, rfl, ?_, rfl, rfl⟩
    dsimp only [Mode.pointers]
    rw [← toUInt16_add, ← toUInt16_add_one (r.fetch.1 + r.cpu.x) _ (UInt8.toNat_add _ _)]
    rfl
  | indirectY =>
    refine ⟨[r.fetch.1], [_, _], rfl, rfl, ?_, rfl, rfl⟩
    dsimp only [Mode.pointers]
    have hbyte : r.fetch.1.toNat = r.fetch.1.toNat % 0x100 :=
      (Nat.mod_eq_of_lt r.fetch.1.toNat_lt).symm
    rw [← toUInt16_eq_pageZero, ← toUInt16_add_one r.fetch.1 _ hbyte]
    rfl

/-! ## The rest of the accesses -/

/-- Everything that is accessed between two machines is at one of the addresses `P`. -/
def Touches (P : UInt16 → Prop) (r r' : Machine (Recorded σ)) : Prop :=
  ∃ data, r'.bus.accesses = data ++ r.bus.accesses ∧ ∀ access ∈ data, P access.addr

section
variable {P : UInt16 → Prop} {r r' r'' : Machine (Recorded σ)}

omit [Bus σ] in
/-- The registers do not matter. -/
theorem Touches.of_eq (h : r'.bus.accesses = r.bus.accesses) : Touches P r r' :=
  ⟨[], h, fun _ hmem => nomatch hmem⟩

omit [Bus σ] in
theorem Touches.trans (h : Touches P r r') (h' : Touches P r' r'') : Touches P r r'' := by
  obtain ⟨data, heq, hdata⟩ := h
  obtain ⟨data', heq', hdata'⟩ := h'
  refine ⟨data' ++ data, ?_, List.forall_mem_append.mpr ⟨hdata', hdata⟩⟩
  rw [heq', heq, List.append_assoc]

theorem touches_read {addr : UInt16} (h : P addr) : Touches P r (r.read addr).2 :=
  ⟨[_], rfl, List.forall_mem_singleton.mpr h⟩

theorem touches_write {addr : UInt16} (h : P addr) (value : UInt8) :
    Touches P r (r.write addr value) :=
  ⟨[_], rfl, List.forall_mem_singleton.mpr h⟩

theorem touches_load {operand : Operand} (h : ∀ addr, operand = .address addr → P addr) :
    Touches P r (r.load operand).2 := by
  cases operand with
  | address addr => exact touches_read (h addr rfl)
  | immediate | accumulator | implied => exact .of_eq rfl

theorem touches_store {operand : Operand} (h : ∀ addr, operand = .address addr → P addr)
    (value : UInt8) : Touches P r (r.store value operand) := by
  cases operand with
  | address addr => exact touches_write (h addr rfl) value
  | immediate | accumulator | implied => exact .of_eq rfl

theorem touches_modify {operand : Operand} (h : ∀ addr, operand = .address addr → P addr)
    (f : Flags → UInt8 → UInt8 × Flags) : Touches P r (r.modify operand f).2 := by
  let flagged := (r.load operand).2.mapCpu fun cpu =>
    { cpu with flags := (f cpu.flags (r.load operand).1).2 }
  have hload : Touches P r flagged := (touches_load h).trans (.of_eq rfl)
  exact hload.trans (touches_store h _)

theorem touches_push (h : ∀ s, P (stackCell s)) (value : UInt8) : Touches P r (r.push value) :=
  touches_write (h r.cpu.s) value

theorem touches_pull (h : ∀ s, P (stackCell s)) : Touches P r r.pull.2 :=
  touches_read (h (r.cpu.s + 1))

theorem touches_pushWord (h : ∀ s, P (stackCell s)) (w : UInt16) : Touches P r (r.pushWord w) :=
  (touches_push h _).trans (touches_push h _)

theorem touches_pullWord (h : ∀ s, P (stackCell s)) : Touches P r r.pullWord.2 :=
  (touches_pull h).trans (touches_pull h)

omit [Bus σ] in
theorem touches_branch (mnemonic : Mnemonic) (operand : Operand) :
    Touches P r (r.branch mnemonic operand) := by
  unfold branch
  split <;> exact .of_eq rfl

end

theorem touches_execute (r : Machine (Recorded σ)) (mnemonic : Mnemonic) (operand : Operand) :
    Touches (mnemonic.WorksAt operand) r (r.execute mnemonic operand) := by
  have place : ∀ addr, operand = .address addr → mnemonic.WorksAt operand addr := fun _ => .inl
  have stack (uses : mnemonic.usesStack = true) : ∀ s, mnemonic.WorksAt operand (stackCell s) :=
    fun s => .inr ⟨uses, s, rfl⟩
  cases mnemonic with
  | lda | ldx | ldy | lax | and | eor | ora | bit | adc | sbc | cmp | cpx | cpy | anc | asr | arr
  | sbx => exact (touches_load place).trans (.of_eq rfl)
  | sta | stx | sty | sax => exact touches_store place _
  | asl | lsr | rol | ror | inc | dec => exact touches_modify place _
  | slo => exact (touches_modify place Flags.asl).trans (.of_eq rfl)
  | rla => exact (touches_modify place Flags.rol).trans (.of_eq rfl)
  | sre => exact (touches_modify place Flags.lsr).trans (.of_eq rfl)
  | rra => exact (touches_modify place Flags.ror).trans (.of_eq rfl)
  | dcp => exact (touches_modify place fun flags value => (value - 1, flags)).trans (.of_eq rfl)
  | isc => exact (touches_modify place fun flags value => (value + 1, flags)).trans (.of_eq rfl)
  | pha | php => exact touches_push (stack rfl) _
  | pla | plp => exact (touches_pull (stack rfl)).trans (.of_eq rfl)
  | jsr => exact (touches_pushWord (stack rfl) _).trans (.of_eq rfl)
  | rts => exact (touches_pullWord (stack rfl)).trans (.of_eq rfl)
  | rti =>
    let flagged := r.pull.2.mapCpu fun cpu => { cpu with flags := Flags.pulled r.pull.1 }
    have hflags : Touches _ r flagged := (touches_pull (stack rfl)).trans (.of_eq rfl)
    exact (hflags.trans (touches_pullWord (stack rfl))).trans (.of_eq rfl)
  | bcc | bcs | bne | beq | bpl | bmi | bvc | bvs => exact touches_branch _ operand
  | nop =>
    cases operand with
    | address addr => exact touches_read (place addr rfl)
    | immediate | accumulator | implied => exact .of_eq rfl
  -- all others work on registers and flags only
  | tax | tay | tsx | txa | txs | tya | inx | iny | dex | dey | jmp | brk | clc | cld | cli | clv
  | sec | sed | sei | jam | las | sha | shx | shy | shs | xaa => exact .of_eq rfl

/-! ## The program counter -/

section
variable (m : Machine σ)

/-- All instructions but jumps and BRK leave the program counter as it is, or branch. -/
theorem pc_execute {mnemonic : Mnemonic} (operand : Operand)
    (h : mnemonic ∉ [.jmp, .jsr, .rts, .rti, .brk]) :
    (m.execute mnemonic operand).cpu.pc =
      if m.cpu.flags.branches mnemonic then operand.target else m.cpu.pc := by
  cases mnemonic with
  | jmp | jsr | rts | rti | brk => exact absurd (by decide) h
  | bcc | bcs | bne | beq | bpl | bmi | bvc | bvs =>
    show (m.branch _ operand).cpu.pc = _
    unfold branch
    split <;> rfl
  | _ => cases operand <;> rfl

/-- BRK skips a byte. -/
theorem pc_brk (operand : Operand) : (m.execute .brk operand).cpu.pc = m.cpu.pc + 1 := by
  show (Cpu.request _ _).pc = _
  unfold Cpu.request
  split <;> rfl

end

/-! ## A whole instruction -/

/-- What an instruction that is emulated reads, where it does its work, and where the next one
    starts. -/
theorem accesses_instruct (r : Machine (Recorded σ)) {instruction : Instruction}
    (hdecode : Instruction.decode r.fetch.1 = instruction)
    (supported : instruction.mnemonic.supported = true) :
    let next := r.cpu.pc + UInt16.ofNat (1 + instruction.mode.operandLength)
    ∃ bytes pointed data,
      bytes.length = instruction.mode.operandLength ∧
      pointed.length = (instruction.mode.pointers r.cpu bytes).length ∧
      r.instruct.2.bus.accesses = (fetches r.cpu.pc (r.fetch.1 :: bytes) ++
        (instruction.mode.pointers r.cpu bytes).zipWith Access.read pointed ++ data).reverse ++
          r.bus.accesses ∧
      (∀ access ∈ data, instruction.mnemonic.WorksAt
        (instruction.mode.found r.cpu next bytes pointed) access.addr) ∧
      (instruction.mnemonic ∉ [.jmp, .jsr, .rts, .rti, .brk] →
        r.instruct.2.cpu.pc = if r.cpu.flags.branches instruction.mnemonic then
          (instruction.mode.found r.cpu next bytes pointed).target else next) ∧
      (instruction.mnemonic = .brk → r.instruct.2.cpu.pc = next + 1) := by
  intro next
  have hnext : r.fetch.2.cpu.pc + UInt16.ofNat instruction.mode.operandLength = next := by
    show r.cpu.pc + 1 + UInt16.ofNat _ = r.cpu.pc + UInt16.ofNat (1 + _)
    rw [UInt16.ofNat_add, UInt16.add_assoc]
    rfl
  have hinstruct := instruct_supported hdecode supported
  clear_value next
  obtain ⟨bytes, pointed, hbytes, hpointed, haccesses, hcpu, hfound⟩ :=
    accesses_operand r.fetch.2 instruction.mode
  rw [hnext] at hcpu hfound
  obtain ⟨data, hdata, hplaces⟩ := touches_execute (r.fetch.2.operand instruction.mode).2
    instruction.mnemonic (r.fetch.2.operand instruction.mode).1.1
  rw [← hinstruct, haccesses] at hdata
  rw [hfound] at hplaces
  refine ⟨bytes, pointed, data.reverse, hbytes, hpointed, ?_, ?_, ?_, ?_⟩
  · have hfetch : r.fetch.2.bus.accesses = .read r.cpu.pc r.fetch.1 :: r.bus.accesses := rfl
    rw [hdata, hfetch]
    simp only [fetches, List.cons_append, List.reverse_cons, List.reverse_append,
      List.reverse_reverse, List.append_assoc, List.nil_append]
    rfl
  · intro access hmem
    exact hplaces access (List.mem_reverse.mp hmem)
  · intro hplain
    rw [hinstruct, pc_execute _ _ hplain, hcpu, hfound]
    rfl
  · intro hbrk
    rw [hinstruct, hbrk, pc_brk, hcpu]

section
variable {m : Machine σ} (h : m.kind = .instruction)
include h

theorem recorded_step_of_instruction : m.recorded.step = m.recorded.ready.instruct := by
  rw [step_eq_serve, kind_recorded, h]
  rfl

theorem cpu_step_of_instruction : m.step.2.cpu = m.recorded.ready.instruct.2.cpu := by
  have hplain : m.recorded.step.2.unrecorded = m.step.2 := (step_unrecorded m.recorded).2
  rw [← hplain, ← recorded_step_of_instruction h]
  rfl

end

omit [Bus σ] in
/-- A taken branch goes to the sum of the address behind the instruction and its offset. -/
theorem taken_target (cpu : Cpu) (next : UInt16) (pointed : List UInt8)
    {instruction : Instruction} {bytes : List UInt8} (hmode : instruction.mode = .relative)
    (hbytes : bytes.length = instruction.mode.operandLength) :
    ∃ offset, bytes = [offset] ∧
      ((instruction.mode.found cpu next bytes pointed).target.toNat : Int) =
        (next.toNat + signedOffset offset) % 0x10000 := by
  rw [hmode] at hbytes ⊢
  obtain ⟨offset, rfl⟩ := List.length_eq_one_iff.mp hbytes
  exact ⟨offset, rfl, toNat_add_signed next offset⟩

/-- A step that services no interrupt reads the opcode and as many operand bytes as the table of
    opcodes says, at consecutive addresses. A mode that goes through a pointer reads the pointer
    next, and the rest is done at the address of the operand or on the stack. Modes of page zero
    stay in page zero. Behind the bytes that were read the next instruction starts, but for jumps,
    returns and taken branches, and BRK skips one more. An opcode that is not emulated is skipped
    in 20 cycles. -/
theorem bytes_of_instruction (m : Machine σ) (h : m.kind = .instruction) :
    let opcode := (Bus.read m.asked.bus m.cpu.pc).1
    let mnemonic := (Instruction.decode opcode).mnemonic
    let mode := (Instruction.decode opcode).mode
    let next := m.cpu.pc + UInt16.ofNat (1 + mode.operandLength)
    m.recorded.step.2.unrecorded = m.step.2 ∧
    (mnemonic.supported = true → ∃ bytes pointed data,
      bytes.length = mode.operandLength ∧
      pointed.length = (mode.pointers m.cpu bytes).length ∧
      m.stepAccesses = fetches m.cpu.pc (opcode :: bytes) ++
        (mode.pointers m.cpu bytes).zipWith Access.read pointed ++ data ∧
      (∀ access ∈ data,
        mnemonic.WorksAt (mode.found m.cpu next bytes pointed) access.addr) ∧
      (mode.throughPageZero = true → ∀ addr ∈ mode.pointers m.cpu bytes, addr.toNat < 0x100) ∧
      (mode.inPageZero = true → ∀ access ∈ data, access.addr.toNat < 0x100) ∧
      (mnemonic ∉ [.jmp, .jsr, .rts, .rti, .brk] → m.cpu.flags.branches mnemonic = false →
        m.step.2.cpu.pc = next) ∧
      (mnemonic = .brk → m.step.2.cpu.pc = m.cpu.pc + 2) ∧
      (m.cpu.flags.branches mnemonic = true → ∃ offset, bytes = [offset] ∧
        (m.step.2.cpu.pc.toNat : Int) = (next.toNat + signedOffset offset) % 0x10000)) ∧
    (mnemonic.supported = false →
      m.stepAccesses = [.read m.cpu.pc opcode] ∧
      m.step = (20, ⟨{ m.cpu with
          pc := m.cpu.pc + 1, pending := m.latched
          reported := m.cpu.reported.insert opcode }, (Bus.read m.asked.bus m.cpu.pc).2⟩)) := by
  intro opcode
  obtain ⟨instruction, hdecode⟩ : ∃ instruction, Instruction.decode opcode = instruction := ⟨_, rfl⟩
  have hmodes := modes_decode opcode
  rw [hdecode] at hmodes ⊢
  intro mnemonic mode next
  obtain ⟨hbranch, hbrk, hpage⟩ := hmodes
  refine ⟨(step_unrecorded m.recorded).2, fun supported => ?_, fun skipped => ⟨?_, ?_⟩⟩
  · obtain ⟨bytes, pointed, data, hbytes, hpointed, haccesses, hplaces, hpc, hpcBrk⟩ :=
      accesses_instruct m.recorded.ready hdecode supported
    rw [← cpu_step_of_instruction h] at hpc hpcBrk
    refine ⟨bytes, pointed, data, hbytes, hpointed, ?_, hplaces, ?_, ?_, ?_, ?_, ?_⟩
    · unfold stepAccesses
      rw [recorded_step_of_instruction h, haccesses, List.reverse_append, List.reverse_reverse]
      rfl
    · exact fun through => pointers_lt m.cpu through bytes
    · intro inside access hmem
      rcases hplaces access hmem with hfound | ⟨uses, -⟩
      · exact found_lt m.cpu inside hfound
      · exact absurd uses (ne_true_of_eq_false (hpage inside))
    · intro hordinary huntaken
      rw [hpc hordinary]
      exact if_neg (ne_true_of_eq_false huntaken)
    · intro hmnemonic
      have hnext : next + 1 = m.cpu.pc + 2 := by
        show m.cpu.pc + UInt16.ofNat (1 + instruction.mode.operandLength) + 1 = m.cpu.pc + 2
        rw [hbrk hmnemonic]
        exact UInt16.add_assoc _ _ _
      exact (hpcBrk hmnemonic).trans hnext
    · intro htaken
      have hmode : instruction.mode = .relative := hbranch (isBranch_of_branches htaken)
      obtain ⟨offset, hoffset, htarget⟩ := taken_target m.cpu next pointed hmode hbytes
      refine ⟨offset, hoffset, ?_⟩
      rw [hpc (not_mem_jumps htaken), ← htarget]
      exact congrArg (fun pc : UInt16 => (pc.toNat : Int)) (if_pos htaken)
  · unfold stepAccesses
    rw [recorded_step_of_instruction h, instruct_skipped (m := m.recorded.ready) hdecode skipped]
    rfl
  · rw [step_eq_serve, h]
    exact instruct_skipped (m := m.ready) hdecode skipped

/-- LDA through a pointer in page zero, with its opcode at the last address: the program counter
    starts over at 0. -/
theorem bytes_of_instruction_last_address :
    let m : Machine FlatMemory := ⟨{ pc := 0xFFFF, x := 1 }, ({} : FlatMemory).poke 0xFFFF 0xA1⟩
    m.kind = .instruction ∧ m.step.2.cpu.pc = 1 ∧ ∃ byte lo hi data,
      m.stepAccesses = [.read 0xFFFF 0xA1, .read 0 byte, .read (pageZero (byte.toNat + 1)) lo,
        .read (pageZero (byte.toNat + 1 + 1)) hi] ++ data := by
  intro m
  have hkind : m.kind = .instruction := rfl
  have hopcode : (Bus.read m.asked.bus m.cpu.pc).1 = 0xA1 := FlatMemory.peek_poke {} 0xFFFF 0xA1
  have hdecode : Instruction.decode 0xA1 = ⟨.lda, .indirectX, .fixed 6⟩ := by decide +kernel
  have hbytes := (bytes_of_instruction m hkind).2.1
  rw [hopcode, hdecode] at hbytes
  obtain ⟨bytes, pointed, data, hone, htwo, haccesses, -, -, -, hpc, -⟩ := hbytes rfl
  obtain ⟨byte, rfl⟩ := List.length_eq_one_iff.mp hone
  obtain ⟨lo, hi, rfl⟩ := List.length_eq_two.mp htwo
  have hwrap : (0xFFFF : UInt16) + 1 = 0 := by decide
  refine ⟨hkind, ?_, byte, lo, hi, data, ?_⟩
  · rw [hpc (by decide) rfl]
    decide
  · rw [haccesses]
    show [.read 0xFFFF 0xA1, .read (0xFFFF + 1) byte, _, _] ++ data = _
    rw [hwrap]
    rfl

end Machine
end Nes
