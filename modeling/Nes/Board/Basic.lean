/-
  Cartridge boards, and the registry that finds a board by its number.
-/
import Nes.Board.Mmc1
import Nes.Board.Mmc3
import Nes.Board.Scripted
import Nes.Board.Simple

namespace Nes

/-- A board with its registers. -/
inductive Board
  | nrom
  | mmc1 (state : Mmc1)
  | uxrom (state : Uxrom)
  | cnrom (state : Cnrom)
  | mmc3 (state : Mmc3)
  | axrom (state : Axrom)
  | scripted (script : Script)
deriving DecidableEq, Inhabited

namespace Board

/-- The number of a board. -/
def mapper : Board → UInt16
  | nrom => 0
  | mmc1 _ => 1
  | uxrom _ => 2
  | cnrom _ => 3
  | mmc3 _ => 4
  | axrom _ => 7
  | scripted script => script.mapper

/-- The name of a board. -/
def name : Board → String
  | nrom => "NROM"
  | mmc1 _ => "MMC1"
  | uxrom _ => "UxROM"
  | cnrom _ => "CNROM"
  | mmc3 _ => "MMC3"
  | axrom _ => "AxROM"
  | scripted script => s!"Mapper {script.mapper.toNat}"

/-- The built-in board with a number, with nothing in its registers. -/
def builtin? (id : UInt16) : Option Board :=
  match id.toNat with
  | 0 => some nrom
  | 1 => some (mmc1 {})
  | 2 => some (uxrom {})
  | 3 => some (cnrom {})
  | 4 => some (mmc3 {})
  | 7 => some (axrom {})
  | _ => none

/-- Applies a constructor to the board's half of a result. -/
@[inline] def wrap {S : Type} (f : S → Board) (result : S × Slot) : Board × Slot :=
  (f result.1, result.2)

/-- Installs the first banks and the mirroring. -/
def init (board : Board) (image : Image) (kind : ResetKind) (slot : Slot) : Board × Slot :=
  match board with
  | nrom => (board, Nrom.init image slot)
  | mmc1 state => wrap mmc1 (state.init image kind slot)
  | uxrom state => wrap uxrom (state.init image kind slot)
  | cnrom state => wrap cnrom (state.init image kind slot)
  | mmc3 state => wrap mmc3 (state.init image kind slot)
  | axrom state => wrap axrom (state.init image kind slot)
  | scripted script =>
    let hook := if kind = .power then Hook.init else Hook.soft
    (board, script.run image { hook } slot)

/-- A write into cartridge space. -/
def write (board : Board) (image : Image) (addr : UInt16) (data : UInt8) (slot : Slot) :
    Board × Slot :=
  match board with
  | nrom => (board, slot)
  | mmc1 state => wrap mmc1 (state.write image addr data slot)
  | uxrom _ => wrap uxrom (Uxrom.write image data slot)
  | cnrom _ => wrap cnrom (Cnrom.write image data slot)
  | mmc3 state => wrap mmc3 (state.write image addr data slot)
  | axrom _ => wrap axrom (Axrom.write image data slot)
  | scripted script => (board, script.run image { hook := .write, addr, data } slot)

/-- Before a line is rendered. -/
def preLine (board : Board) (image : Image) (line : Nat) (slot : Slot) : Board × Slot :=
  match board with
  | scripted script => (board, script.run image { hook := .preLine, line := some line } slot)
  | _ => (board, slot)

/-- After a line is rendered, before the CPU runs. -/
def hblank (board : Board) (image : Image) (line : Nat) (slot : Slot) : Board × Slot :=
  match board with
  | mmc3 state => wrap mmc3 (state.hblank line slot)
  | scripted script => (board, script.run image { hook := .hblank, line := some line } slot)
  | _ => (board, slot)

/-- The start of the vertical blank. -/
def vblank (board : Board) (image : Image) (slot : Slot) : Board × Slot :=
  match board with
  | scripted script => (board, script.run image { hook := .vblank } slot)
  | _ => (board, slot)

end Board

/-- The boards that cartridges can have: the built-in ones, and those a host adds. -/
structure Registry where
  /-- Added boards by number, the latest first. -/
  added : List (UInt16 × Script) := []
deriving DecidableEq, Inhabited

namespace Registry

/-- Adds a board, in place of any with the same number. -/
def add (registry : Registry) (id : UInt16) (script : Script) : Registry :=
  ⟨(id, script) :: registry.added⟩

/-- The board with a number. -/
def find? (registry : Registry) (id : UInt16) : Option Board :=
  match registry.added.lookup id with
  | some script => some (.scripted script)
  | none => Board.builtin? id

/-- Builds the board with a number. -/
def build (registry : Registry) (id : UInt16) : Except LoadError Board :=
  match registry.find? id with
  | some board => .ok board
  | none => .error (.unsupportedMapper id)

end Registry
end Nes
