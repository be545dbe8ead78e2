/-
  Boards that a host describes by data: for every hook a list of commands that it runs.
-/
import Nes.Board.Slot

namespace Nes

/-- What a scripted hook can do. -/
inductive BoardCommand
  /-- Maps a PRG bank. -/
  | prg (start : UInt16) (size bank : Nat)
  /-- Maps the PRG bank whose number was written. -/
  | prgData (start : UInt16) (size : Nat)
  /-- Loads a CHR bank. -/
  | chr (addr : UInt16) (size bank : Nat)
  /-- Loads the CHR bank whose number was written. -/
  | chrData (addr : UInt16) (size : Nat)
  /-- Switches the nametables. -/
  | mirroring (arrangement : Mirroring)
  /-- Switches the nametables to what the header says. -/
  | headerMirroring
  /-- Drives the IRQ line. -/
  | irq (level : Bool)
  /-- Takes a note. -/
  | note
deriving DecidableEq, Inhabited

/-- A command, for one scanline only or for all. -/
structure Cue where
  line : Option Nat := none
  command : BoardCommand
deriving DecidableEq, Inhabited

/-- A board described by data. -/
structure Script where
  /-- The number the board goes by. -/
  mapper : UInt16
  init : List Cue := []
  soft : List Cue := []
  write : List Cue := []
  preLine : List Cue := []
  hblank : List Cue := []
  vblank : List Cue := []
deriving DecidableEq, Inhabited

/-- Runs one command. -/
def BoardCommand.run (image : Image) (call : Call) (slot : Slot) : BoardCommand → Slot
  | .prg start size bank => slot.mapPrg image start size bank
  | .prgData start size => slot.mapPrg image start size call.data.toNat
  | .chr addr size bank => slot.loadChr image addr size bank
  | .chrData addr size => slot.loadChr image addr size call.data.toNat
  | .mirroring arrangement => slot.setMirroring arrangement
  | .headerMirroring => slot.setMirroring image.header.mirroring
  | .irq level => slot.setIrq level
  | .note => slot.note image call

namespace Script

/-- The commands of a hook. -/
def cues (script : Script) : Hook → List Cue
  | .init => script.init
  | .soft => script.soft
  | .write => script.write
  | .preLine => script.preLine
  | .hblank => script.hblank
  | .vblank => script.vblank

/-- Runs a hook: its commands in order, without those for other lines. -/
def run (script : Script) (image : Image) (call : Call) (slot : Slot) : Slot :=
  (script.cues call.hook).foldl
    (fun slot cue =>
      if cue.line.isNone || cue.line = call.line then cue.command.run image call slot else slot)
    slot

end Script
end Nes
