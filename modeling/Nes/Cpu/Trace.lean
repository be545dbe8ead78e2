/-
  The CPU as text: registers, disassembled instructions and the reports of a trace.

  A trace is computed beside the run: stepping knows nothing of it.
-/
import Nes.Cpu.Step
import Nes.Text.Hex

namespace Nes

open Text

/-- A byte as `0x` and two digits. -/
def byteText (b : UInt8) : String := "0x" ++ lowerHex 2 b.toNat

/-- The registers as text. -/
def Cpu.text (cpu : Cpu) : String :=
  let fields := [
    "a:" ++ byteText cpu.a, "x:" ++ byteText cpu.x, "y:" ++ byteText cpu.y,
    "s:" ++ byteText cpu.s, "p:" ++ byteText cpu.flags.toByte,
    "pc:0x" ++ lowerHex 4 cpu.pc.toNat]
  "[" ++ ",".intercalate fields ++ "]"

/-- An operand as text. -/
def Operand.text : Operand → String
  | implied => ""
  | accumulator => "A"
  | immediate value => "#$" ++ upperHex 2 value.toNat
  | address addr => "$" ++ upperHex 4 addr.toNat

/-- Fills a text with spaces to a width. -/
def padRight (width : Nat) (s : String) : String :=
  s ++ String.ofList (List.replicate (width - s.length) ' ')

/-- One disassembled instruction. -/
def Instruction.text (i : Instruction) (pc : UInt16) (opcode : UInt8) (operand : Operand) :
    String :=
  upperHex 4 pc.toNat ++ "  " ++ upperHex 2 opcode.toNat ++ "  " ++ i.mnemonic.text ++ " " ++
    padRight 6 operand.text ++ " [" ++ i.mode.text ++ "]"

/-- How urgent a report is. -/
inductive Level
  | trace
  | warn
deriving DecidableEq

/-- One line of a trace: its values by name, and a message. -/
structure Report where
  level : Level
  values : List (String × String)
  message : String

/-- What is reported when an action is about to be performed. Only the first meeting with an
    unsupported opcode is a warning. -/
def Action.report? (cpu : Cpu) : Action → Option Report
  | .reset => some ⟨.trace, [("pc", toString cpu.pc.toNat)], "reset requested"⟩
  | .interrupt .. => none
  | .skip pc opcode =>
    let opcodeText := ("opcode", "0x" ++ upperHex 2 opcode.toNat)
    let pcText := ("pc", "0x" ++ upperHex 4 pc.toNat)
    if opcode ∈ cpu.reported then some ⟨.trace, [opcodeText, pcText], "unsupported opcode"⟩
    else
      some ⟨.warn, [opcodeText, pcText, ("line", toString cpu.line.toNat)],
        "unsupported opcode, skipping"⟩
  | .execute pc opcode instruction operand _ =>
    some ⟨.trace, [("line", toString cpu.line.toNat)],
      instruction.text pc opcode operand ++ " " ++ cpu.text⟩

namespace Machine

variable {σ : Type} [Bus σ]

/-- The report of the next step. -/
def stepReport? (m : Machine σ) : Option Report :=
  let (action, m) := m.next
  action.report? m.cpu

/-- The reports of the steps that `spend` takes. -/
def spendReports (m : Machine σ) : (fuel : Nat) → List Report
  | 0 => []
  | fuel + 1 =>
    if m.cpu.cycles < lineCycles then
      let (spent, stepped) := m.step
      m.stepReport?.toList ++ spendReports (stepped.charge spent) fuel
    else []

/-- The reports of one scanline. -/
def lineReports (m : Machine σ) (line : UInt16) : List Report :=
  (m.beginLine line).spendReports lineSteps

end Machine
end Nes
