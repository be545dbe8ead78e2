/-
  The instruction set: what each of the 256 opcode bytes stands for.

  The undocumented opcodes are decoded as well. Those that lock up the processor, or whose
  result depends on analogue effects, are marked as unsupported.
-/

namespace Nes

/-- What an instruction does. -/
inductive Mnemonic
  -- loads and stores
  | las | lax | lda | ldx | ldy | sax | sha | shx | shy | sta | stx | sty
  -- transfers
  | shs | tax | tay | tsx | txa | txs | tya
  -- stack
  | pha | php | pla | plp
  -- shifts
  | asl | lsr | rol | ror
  -- logic
  | and | bit | eor | ora
  -- arithmetic
  | adc | anc | arr | asr | cmp | cpx | cpy | dcp | isc | rla | rra | sbc | sbx | slo | sre | xaa
  -- counting
  | dec | dex | dey | inc | inx | iny
  -- jumps
  | brk | jmp | jsr | rti | rts
  -- branches
  | bcc | bcs | beq | bmi | bne | bpl | bvc | bvs
  -- flags
  | clc | cld | cli | clv | sec | sed | sei
  -- the rest
  | jam | nop
deriving DecidableEq, Inhabited

namespace Mnemonic

/-- The name in assembly text. -/
def text : Mnemonic → String
  | las => "LAS" | lax => "LAX" | lda => "LDA" | ldx => "LDX" | ldy => "LDY" | sax => "SAX"
  | sha => "SHA" | shx => "SHX" | shy => "SHY" | sta => "STA" | stx => "STX" | sty => "STY"
  | shs => "SHS" | tax => "TAX" | tay => "TAY" | tsx => "TSX" | txa => "TXA" | txs => "TXS"
  | tya => "TYA" | pha => "PHA" | php => "PHP" | pla => "PLA" | plp => "PLP" | asl => "ASL"
  | lsr => "LSR" | rol => "ROL" | ror => "ROR" | and => "AND" | bit => "BIT" | eor => "EOR"
  | ora => "ORA" | adc => "ADC" | anc => "ANC" | arr => "ARR" | asr => "ASR" | cmp => "CMP"
  | cpx => "CPX" | cpy => "CPY" | dcp => "DCP" | isc => "ISC" | rla => "RLA" | rra => "RRA"
  | sbc => "SBC" | sbx => "SBX" | slo => "SLO" | sre => "SRE" | xaa => "XAA" | dec => "DEC"
  | dex => "DEX" | dey => "DEY" | inc => "INC" | inx => "INX" | iny => "INY" | brk => "BRK"
  | jmp => "JMP" | jsr => "JSR" | rti => "RTI" | rts => "RTS" | bcc => "BCC" | bcs => "BCS"
  | beq => "BEQ" | bmi => "BMI" | bne => "BNE" | bpl => "BPL" | bvc => "BVC" | bvs => "BVS"
  | clc => "CLC" | cld => "CLD" | cli => "CLI" | clv => "CLV" | sec => "SEC" | sed => "SED"
  | sei => "SEI" | jam => "JAM" | nop => "NOP"

/-- Whether the instruction is emulated. -/
def supported : Mnemonic → Bool
  | jam | las | sha | shx | shy | shs | xaa => false
  | _ => true

end Mnemonic

/-- Where an instruction finds its operand. -/
inductive Mode
  | implied
  | accumulator
  | immediate
  | absolute
  | absoluteX
  | absoluteY
  | indirect
  | zeroPage
  | zeroPageX
  | zeroPageY
  | indirectX
  | indirectY
  | relative
deriving DecidableEq, Inhabited

namespace Mode

/-- The short form in assembly text. -/
def text : Mode → String
  | implied => "imp"
  | accumulator => "acc"
  | immediate => "imm"
  | absolute => "abs"
  | absoluteX => "abs,x"
  | absoluteY => "abs,y"
  | indirect => "(ind)"
  | zeroPage => "zp"
  | zeroPageX => "zp,x"
  | zeroPageY => "zp,y"
  | indirectX => "(zp,x)"
  | indirectY => "(zp),y"
  | relative => "rel"

/-- Operand bytes behind the opcode. -/
def operandLength : Mode → Nat
  | implied | accumulator => 0
  | absolute | absoluteX | absoluteY | indirect => 2
  | _ => 1

end Mode

/-- What an instruction costs. -/
inductive Timing
  /-- Always the same. -/
  | fixed (cycles : Nat)
  /-- One more when indexing leaves the page. -/
  | paged (cycles : Nat)
  /-- One more when the branch is taken, and another if it leaves the page. -/
  | branch (cycles : Nat)
deriving DecidableEq, Inhabited

/-- The cycles an instruction takes. -/
def Timing.cost (crossed taken : Bool) : Timing → Nat
  | fixed cycles => cycles
  | paged cycles => cycles + crossed.toNat
  | branch cycles => if taken then cycles + 1 + crossed.toNat else cycles

/-- One decoded opcode. -/
structure Instruction where
  mnemonic : Mnemonic
  mode : Mode
  timing : Timing
deriving DecidableEq, Inhabited

namespace Instruction

open Mnemonic Mode Timing

/-- The opcodes $00 to $3F. -/
def quarter0 : Vector Instruction 64 := #v[
  ⟨brk, implied, fixed 7⟩, ⟨ora, indirectX, fixed 6⟩, ⟨jam, implied, fixed 0⟩,
  ⟨slo, indirectX, fixed 8⟩, ⟨nop, zeroPage, fixed 3⟩, ⟨ora, zeroPage, fixed 3⟩,
  ⟨asl, zeroPage, fixed 5⟩, ⟨slo, zeroPage, fixed 5⟩, ⟨php, implied, fixed 3⟩,
  ⟨ora, immediate, fixed 2⟩, ⟨asl, accumulator, fixed 2⟩, ⟨anc, immediate, fixed 2⟩,
  ⟨nop, absolute, fixed 4⟩, ⟨ora, absolute, fixed 4⟩, ⟨asl, absolute, fixed 6⟩,
  ⟨slo, absolute, fixed 6⟩, ⟨bpl, relative, branch 2⟩, ⟨ora, indirectY, paged 5⟩,
  ⟨jam, implied, fixed 0⟩, ⟨slo, indirectY, fixed 8⟩, ⟨nop, zeroPageX, fixed 4⟩,
  ⟨ora, zeroPageX, fixed 4⟩, ⟨asl, zeroPageX, fixed 6⟩, ⟨slo, zeroPageX, fixed 6⟩,
  ⟨clc, implied, fixed 2⟩, ⟨ora, absoluteY, paged 4⟩, ⟨nop, implied, fixed 2⟩,
  ⟨slo, absoluteY, fixed 7⟩, ⟨nop, absoluteX, paged 4⟩, ⟨ora, absoluteX, paged 4⟩,
  ⟨asl, absoluteX, fixed 7⟩, ⟨slo, absoluteX, fixed 7⟩, ⟨jsr, absolute, fixed 6⟩,
  ⟨and, indirectX, fixed 6⟩, ⟨jam, implied, fixed 0⟩, ⟨rla, indirectX, fixed 8⟩,
  ⟨bit, zeroPage, fixed 3⟩, ⟨and, zeroPage, fixed 3⟩, ⟨rol, zeroPage, fixed 5⟩,
  ⟨rla, zeroPage, fixed 5⟩, ⟨plp, implied, fixed 4⟩, ⟨and, immediate, fixed 2⟩,
  ⟨rol, accumulator, fixed 2⟩, ⟨anc, immediate, fixed 2⟩, ⟨bit, absolute, fixed 4⟩,
  ⟨and, absolute, fixed 4⟩, ⟨rol, absolute, fixed 6⟩, ⟨rla, absolute, fixed 6⟩,
  ⟨bmi, relative, branch 2⟩, ⟨and, indirectY, paged 5⟩, ⟨jam, implied, fixed 0⟩,
  ⟨rla, indirectY, fixed 8⟩, ⟨nop, zeroPageX, fixed 4⟩, ⟨and, zeroPageX, fixed 4⟩,
  ⟨rol, zeroPageX, fixed 6⟩, ⟨rla, zeroPageX, fixed 6⟩, ⟨sec, implied, fixed 2⟩,
  ⟨and, absoluteY, paged 4⟩, ⟨nop, implied, fixed 2⟩, ⟨rla, absoluteY, fixed 7⟩,
  ⟨nop, absoluteX, paged 4⟩, ⟨and, absoluteX, paged 4⟩, ⟨rol, absoluteX, fixed 7⟩,
  ⟨rla, absoluteX, fixed 7⟩]

/-- The opcodes $40 to $7F. -/
def quarter1 : Vector Instruction 64 := #v[
  ⟨rti, implied, fixed 6⟩, ⟨eor, indirectX, fixed 6⟩, ⟨jam, implied, fixed 0⟩,
  ⟨sre, indirectX, fixed 8⟩, ⟨nop, zeroPage, fixed 3⟩, ⟨eor, zeroPage, fixed 3⟩,
  ⟨lsr, zeroPage, fixed 5⟩, ⟨sre, zeroPage, fixed 5⟩, ⟨pha, implied, fixed 3⟩,
  ⟨eor, immediate, fixed 2⟩, ⟨lsr, accumulator, fixed 2⟩, ⟨asr, immediate, fixed 2⟩,
  ⟨jmp, absolute, fixed 3⟩, ⟨eor, absolute, fixed 4⟩, ⟨lsr, absolute, fixed 6⟩,
  ⟨sre, absolute, fixed 6⟩, ⟨bvc, relative, branch 2⟩, ⟨eor, indirectY, paged 5⟩,
  ⟨jam, implied, fixed 0⟩, ⟨sre, indirectY, fixed 8⟩, ⟨nop, zeroPageX, fixed 4⟩,
  ⟨eor, zeroPageX, fixed 4⟩, ⟨lsr, zeroPageX, fixed 6⟩, ⟨sre, zeroPageX, fixed 6⟩,
  ⟨cli, implied, fixed 2⟩, ⟨eor, absoluteY, paged 4⟩, ⟨nop, implied, fixed 2⟩,
  ⟨sre, absoluteY, fixed 7⟩, ⟨nop, absoluteX, paged 4⟩, ⟨eor, absoluteX, paged 4⟩,
  ⟨lsr, absoluteX, fixed 7⟩, ⟨sre, absoluteX, fixed 7⟩, ⟨rts, implied, fixed 6⟩,
  ⟨adc, indirectX, fixed 6⟩, ⟨jam, implied, fixed 0⟩, ⟨rra, indirectX, fixed 8⟩,
  ⟨nop, zeroPage, fixed 3⟩, ⟨adc, zeroPage, fixed 3⟩, ⟨ror, zeroPage, fixed 5⟩,
  ⟨rra, zeroPage, fixed 5⟩, ⟨pla, implied, fixed 4⟩, ⟨adc, immediate, fixed 2⟩,
  ⟨ror, accumulator, fixed 2⟩, ⟨arr, immediate, fixed 2⟩, ⟨jmp, indirect, fixed 5⟩,
  ⟨adc, absolute, fixed 4⟩, ⟨ror, absolute, fixed 6⟩, ⟨rra, absolute, fixed 6⟩,
  ⟨bvs, relative, branch 2⟩, ⟨adc, indirectY, paged 5⟩, ⟨jam, implied, fixed 0⟩,
  ⟨rra, indirectY, fixed 8⟩, ⟨nop, zeroPageX, fixed 4⟩, ⟨adc, zeroPageX, fixed 4⟩,
  ⟨ror, zeroPageX, fixed 6⟩, ⟨rra, zeroPageX, fixed 6⟩, ⟨sei, implied, fixed 2⟩,
  ⟨adc, absoluteY, paged 4⟩, ⟨nop, implied, fixed 2⟩, ⟨rra, absoluteY, fixed 7⟩,
  ⟨nop, absoluteX, paged 4⟩, ⟨adc, absoluteX, paged 4⟩, ⟨ror, absoluteX, fixed 7⟩,
  ⟨rra, absoluteX, fixed 7⟩]

/-- The opcodes $80 to $BF. -/
def quarter2 : Vector Instruction 64 := #v[
  ⟨nop, immediate, fixed 2⟩, ⟨sta, indirectX, fixed 6⟩, ⟨nop, immediate, fixed 2⟩,
  ⟨sax, indirectX, fixed 6⟩, ⟨sty, zeroPage, fixed 3⟩, ⟨sta, zeroPage, fixed 3⟩,
  ⟨stx, zeroPage, fixed 3⟩, ⟨sax, zeroPage, fixed 3⟩, ⟨dey, implied, fixed 2⟩,
  ⟨nop, immediate, fixed 2⟩, ⟨txa, implied, fixed 2⟩, ⟨xaa, immediate, fixed 2⟩,
  ⟨sty, absolute, fixed 4⟩, ⟨sta, absolute, fixed 4⟩, ⟨stx, absolute, fixed 4⟩,
  ⟨sax, absolute, fixed 4⟩, ⟨bcc, relative, branch 2⟩, ⟨sta, indirectY, fixed 6⟩,
  ⟨jam, implied, fixed 0⟩, ⟨sha, indirectY, fixed 6⟩, ⟨sty, zeroPageX, fixed 4⟩,
  ⟨sta, zeroPageX, fixed 4⟩, ⟨stx, zeroPageY, fixed 4⟩, ⟨sax, zeroPageY, fixed 4⟩,
  ⟨tya, implied, fixed 2⟩, ⟨sta, absoluteY, fixed 5⟩, ⟨txs, implied, fixed 2⟩,
  ⟨shs, absoluteY, fixed 5⟩, ⟨shy, absoluteX, fixed 5⟩, ⟨sta, absoluteX, fixed 5⟩,
  ⟨shx, absoluteY, fixed 5⟩, ⟨sha, absoluteY, fixed 5⟩, ⟨ldy, immediate, fixed 2⟩,
  ⟨lda, indirectX, fixed 6⟩, ⟨ldx, immediate, fixed 2⟩, ⟨lax, indirectX, fixed 6⟩,
  ⟨ldy, zeroPage, fixed 3⟩, ⟨lda, zeroPage, fixed 3⟩, ⟨ldx, zeroPage, fixed 3⟩,
  ⟨lax, zeroPage, fixed 3⟩, ⟨tay, implied, fixed 2⟩, ⟨lda, immediate, fixed 2⟩,
  ⟨tax, implied, fixed 2⟩, ⟨lax, immediate, fixed 2⟩, ⟨ldy, absolute, fixed 4⟩,
  ⟨lda, absolute, fixed 4⟩, ⟨ldx, absolute, fixed 4⟩, ⟨lax, absolute, fixed 4⟩,
  ⟨bcs, relative, branch 2⟩, ⟨lda, indirectY, paged 5⟩, ⟨jam, implied, fixed 0⟩,
  ⟨lax, indirectY, paged 5⟩, ⟨ldy, zeroPageX, fixed 4⟩, ⟨lda, zeroPageX, fixed 4⟩,
  ⟨ldx, zeroPageY, fixed 4⟩, ⟨lax, zeroPageY, fixed 4⟩, ⟨clv, implied, fixed 2⟩,
  ⟨lda, absoluteY, paged 4⟩, ⟨tsx, implied, fixed 2⟩, ⟨las, absoluteY, paged 4⟩,
  ⟨ldy, absoluteX, paged 4⟩, ⟨lda, absoluteX, paged 4⟩, ⟨ldx, absoluteY, paged 4⟩,
  ⟨lax, absoluteY, paged 4⟩]

/-- The opcodes $C0 to $FF. -/
def quarter3 : Vector Instruction 64 := #v[
  ⟨cpy, immediate, fixed 2⟩, ⟨cmp, indirectX, fixed 6⟩, ⟨nop, immediate, fixed 2⟩,
  ⟨dcp, indirectX, fixed 8⟩, ⟨cpy, zeroPage, fixed 3⟩, ⟨cmp, zeroPage, fixed 3⟩,
  ⟨dec, zeroPage, fixed 5⟩, ⟨dcp, zeroPage, fixed 5⟩, ⟨iny, implied, fixed 2⟩,
  ⟨cmp, immediate, fixed 2⟩, ⟨dex, implied, fixed 2⟩, ⟨sbx, immediate, fixed 2⟩,
  ⟨cpy, absolute, fixed 4⟩, ⟨cmp, absolute, fixed 4⟩, ⟨dec, absolute, fixed 6⟩,
  ⟨dcp, absolute, fixed 6⟩, ⟨bne, relative, branch 2⟩, ⟨cmp, indirectY, paged 5⟩,
  ⟨jam, implied, fixed 0⟩, ⟨dcp, indirectY, fixed 8⟩, ⟨nop, zeroPageX, fixed 4⟩,
  ⟨cmp, zeroPageX, fixed 4⟩, ⟨dec, zeroPageX, fixed 6⟩, ⟨dcp, zeroPageX, fixed 6⟩,
  ⟨cld, implied, fixed 2⟩, ⟨cmp, absoluteY, paged 4⟩, ⟨nop, implied, fixed 2⟩,
  ⟨dcp, absoluteY, fixed 7⟩, ⟨nop, absoluteX, paged 4⟩, ⟨cmp, absoluteX, paged 4⟩,
  ⟨dec, absoluteX, fixed 7⟩, ⟨dcp, absoluteX, fixed 7⟩, ⟨cpx, immediate, fixed 2⟩,
  ⟨sbc, indirectX, fixed 6⟩, ⟨nop, immediate, fixed 2⟩, ⟨isc, indirectX, fixed 8⟩,
  ⟨cpx, zeroPage, fixed 3⟩, ⟨sbc, zeroPage, fixed 3⟩, ⟨inc, zeroPage, fixed 5⟩,
  ⟨isc, zeroPage, fixed 5⟩, ⟨inx, implied, fixed 2⟩, ⟨sbc, immediate, fixed 2⟩,
  ⟨nop, implied, fixed 2⟩, ⟨sbc, immediate, fixed 2⟩, ⟨cpx, absolute, fixed 4⟩,
  ⟨sbc, absolute, fixed 4⟩, ⟨inc, absolute, fixed 6⟩, ⟨isc, absolute, fixed 6⟩,
  ⟨beq, relative, branch 2⟩, ⟨sbc, indirectY, paged 5⟩, ⟨jam, implied, fixed 0⟩,
  ⟨isc, indirectY, fixed 8⟩, ⟨nop, zeroPageX, fixed 4⟩, ⟨sbc, zeroPageX, fixed 4⟩,
  ⟨inc, zeroPageX, fixed 6⟩, ⟨isc, zeroPageX, fixed 6⟩, ⟨sed, implied, fixed 2⟩,
  ⟨sbc, absoluteY, paged 4⟩, ⟨nop, implied, fixed 2⟩, ⟨isc, absoluteY, fixed 7⟩,
  ⟨nop, absoluteX, paged 4⟩, ⟨sbc, absoluteX, paged 4⟩, ⟨inc, absoluteX, fixed 7⟩,
  ⟨isc, absoluteX, fixed 7⟩]

/-- The whole table, indexed by opcode byte. -/
def table : Vector Instruction 256 := quarter0 ++ quarter1 ++ quarter2 ++ quarter3

/-- The instruction that an opcode byte stands for. -/
@[inline] def decode (opcode : UInt8) : Instruction :=
  have h := opcode.toNat_lt
  table[opcode.toNat]

end Instruction
end Nes
