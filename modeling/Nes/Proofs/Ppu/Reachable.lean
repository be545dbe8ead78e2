/-
  The states that a PPU can get into.

  `Ppu.Operation` is one operation of the PPU that the console or a host can do, and
  `Ppu.Reachable` holds of what operations make of a new PPU. The PPU of a console is in such a
  state after any sequence of requests (`reachable_after`).

  In all of them the colour table is that of the emphasis bits in the mask, although it is only
  computed when they change, and a prepared sprite pixel has a colour other than its palette's
  backdrop (`settled_of_reachable`).
-/
import Nes.Proofs.Board.Actions
import Nes.Proofs.Console.Requests
import Nes.Proofs.Ppu.SpriteMarks

namespace Nes

/-- The table that is computed from scratch for the emphasis bits. -/
def ColorTable.of (emphasis : Emphasis) : ColorTable := { emphasis, colors := emphasis.colors }

theorem ColorTable.update_of (old emphasis : Emphasis) :
    (ColorTable.of old).update emphasis = .of emphasis := by
  unfold update
  split
  · next h =>
    have hold : emphasis = old := h
    rw [hold]
  · rfl

/-! ## Opaque sprite pixels -/

namespace SpriteLine

/-- All pixels in a line are opaque. -/
def Opaque (line : SpriteLine) : Prop :=
  ∀ (x : Nat) (dot : SpriteDot), line.cells[x]? = some (some dot) → dot.Opaque

theorem opaque_empty : ({} : SpriteLine).Opaque := by
  intro x dot hx
  rw [Vector.getElem?_replicate] at hx
  split at hx
  · cases hx
  · cases hx

theorem opaque_place {line : SpriteLine} (h : line.Opaque) (x : Nat) {dot : SpriteDot}
    (hdot : dot.Opaque) : (line.place x dot).Opaque := by
  unfold place
  split
  · split
    · exact h
    · intro y dot' hy
      dsimp only at hy
      rw [Vector.getElem?_set] at hy
      split at hy
      · cases hy
        exact hdot
      · exact h y dot' hy
  · exact h

end SpriteLine

namespace Ppu

theorem opaque_evaluateSprites (ppu : Ppu) (line : Nat) :
    (ppu.evaluateSprites line).sprites.Opaque :=
  evaluateSprites_keeps (P := SpriteLine.Opaque)
    (fun x _ h hdot => SpriteLine.opaque_place h x hdot) SpriteLine.opaque_empty ppu line

/-! ## Operations -/

/-- One operation of the PPU: what the console does with it, and what a host can do besides. -/
inductive Operation : Ppu → Ppu → Prop
  | step {a b : Ppu} (step : Step a b) : Operation a b
  | power (ppu : Ppu) : Operation ppu (ppu.reset .power)
  | writeByte (ppu : Ppu) (addr : Nat) (value : UInt8) : Operation ppu (ppu.writeByte addr value)
  | writeBlock (ppu : Ppu) (addr : Nat) (data : Bytes) : Operation ppu (ppu.writeBlock addr data)
  | oamWrite (ppu : Ppu) (i value : UInt8) : Operation ppu (ppu.oamWrite i value)
  | setMirroring (ppu : Ppu) (mirroring : Mirroring) : Operation ppu (ppu.setMirroring mirroring)
  | setMirroringCode (ppu : Ppu) (code : UInt8) : Operation ppu (ppu.setMirroringCode code)
  | setChrWritable (ppu : Ppu) (chrWritable : Bool) : Operation ppu { ppu with chrWritable }

/-- What operations make of a new PPU. -/
def Reachable (ppu : Ppu) : Prop := Relation.ReflTransGen Operation {} ppu

theorem Reachable.next {a b : Ppu} (h : Reachable a) (operation : Operation a b) : Reachable b :=
  Relation.ReflTransGen.tail h operation

/-- What holds of a new PPU and is kept by every operation holds of every reachable one. -/
theorem Reachable.keeps {P : Ppu → Prop} (new : P {})
    (kept : ∀ {a b : Ppu}, Operation a b → P a → P b) {ppu : Ppu} (h : Reachable ppu) : P ppu := by
  induction h with
  | refl => exact new
  | tail _ operation ih => exact kept operation ih

/-- The colour table is up to date, and the prepared sprite pixels are opaque. -/
structure Settled (ppu : Ppu) : Prop where
  colors : ppu.colors = .of ppu.mask.emphasis
  sprites : ppu.sprites.Opaque

/-- What changes neither the mask, nor the colour table, nor the prepared sprite pixels. -/
theorem Settled.congr {a b : Ppu} (h : Settled a) (hmask : b.mask = a.mask)
    (hcolors : b.colors = a.colors) (hsprites : b.sprites = a.sprites) : Settled b := by
  constructor
  · rw [hcolors, hmask]
    exact h.colors
  · rw [hsprites]
    exact h.sprites

theorem settled_new : ({} : Ppu).Settled := ⟨rfl, SpriteLine.opaque_empty⟩

theorem settled_readRegister {ppu : Ppu} (h : ppu.Settled) (register : PpuRegister) :
    (ppu.readRegister register).2.Settled := by
  cases register with
  | data =>
    unfold readRegister readData
    dsimp only
    split
    · exact h.congr rfl rfl rfl
    · exact h.congr rfl rfl rfl
  | control | mask | status | oamAddress | oamData | scroll | address => exact h.congr rfl rfl rfl

theorem settled_writeMask {ppu : Ppu} (h : ppu.Settled) (value : UInt8) :
    (ppu.writeMask value).Settled := by
  constructor
  · unfold writeMask
    dsimp only
    rw [h.colors, ColorTable.update_of]
  · exact h.sprites

theorem settled_writeRegister {ppu : Ppu} (h : ppu.Settled) (register : PpuRegister)
    (value : UInt8) : (ppu.writeRegister register value).Settled := by
  have hlatch : Settled { ppu with latch := value } := h.congr rfl rfl rfl
  cases register with
  | mask => exact settled_writeMask hlatch value
  | data =>
    unfold writeRegister writeData
    dsimp only
    split
    · exact h.congr rfl rfl rfl
    · exact h.congr rfl rfl rfl
  | control | status | oamAddress | oamData | scroll | address => exact h.congr rfl rfl rfl

theorem settled_oamWriteFrom {ppu : Ppu} (h : ppu.Settled) (start : UInt8) (data : List UInt8) :
    (ppu.oamWriteFrom start data).Settled := by
  induction data generalizing ppu start with
  | nil => exact h
  | cons value data ih =>
    have hwrite : (ppu.oamWrite start value).Settled := h.congr rfl rfl rfl
    exact ih hwrite (start + 1)

theorem settled_preRender {ppu : Ppu} (h : ppu.Settled) (line : Nat) :
    (ppu.preRender line).Settled := by
  have hscroll (scroll : Scroll) : Settled { ppu with scroll } := h.congr rfl rfl rfl
  unfold preRender
  split
  · split
    · exact hscroll _
    · exact h
  · split
    · split
      · exact hscroll _
      · exact h
    · split
      · exact h.congr rfl rfl rfl
      · split
        · exact ⟨h.colors, SpriteLine.opaque_empty⟩
        · exact h

theorem settled_renderScanline {ppu : Ppu} (h : ppu.Settled) (line : Nat)
    (picture : Option Picture) : (ppu.renderScanline line picture).2.Settled := by
  unfold renderScanline
  split
  · exact h
  · dsimp only
    split
    · refine ⟨?_, opaque_evaluateSprites _ line⟩
      unfold drawLine evaluateSprites
      split
      · exact h.colors
      · exact h.colors
    · exact ⟨h.colors, SpriteLine.opaque_empty⟩

theorem settled_step {a b : Ppu} (step : Step a b) (h : a.Settled) : b.Settled := by
  cases step with
  | readRegister register => exact settled_readRegister h register
  | writeRegister register value => exact settled_writeRegister h register value
  | oamWriteBlock start data => exact settled_oamWriteFrom h start data.toList
  | takeNmi => exact h.congr rfl rfl rfl
  | preRender line => exact settled_preRender h line
  | renderScanline line picture => exact settled_renderScanline h line picture
  | reset =>
    refine ⟨?_, SpriteLine.opaque_empty⟩
    unfold reset
    dsimp only
    rw [h.colors, ColorTable.update_of]

theorem settled_operation {a b : Ppu} (operation : Operation a b) (h : a.Settled) : b.Settled := by
  cases operation with
  | step step => exact settled_step step h
  | power => exact settled_new
  | setMirroringCode code =>
    unfold setMirroringCode
    split
    · exact h.congr rfl rfl rfl
    · exact h
  | writeByte | writeBlock | oamWrite | setMirroring | setChrWritable => exact h.congr rfl rfl rfl

theorem settled_of_reachable {ppu : Ppu} (h : ppu.Reachable) : ppu.Settled :=
  h.keeps settled_new settled_operation

end Ppu

/-! ## The PPU of a console -/

theorem Slot.reachable_run {image : Image} {a b : Slot} (run : Slot.Run image a b)
    (h : a.ppu.Reachable) : b.ppu.Reachable := by
  refine run.keeps (P := fun slot => slot.ppu.Reachable) (fun action ih => ?_) h
  cases action with
  | mapPrg start size bank =>
    unfold Slot.mapPrg
    dsimp only
    split
    · exact ih
    · exact ih
  | loadChr addr size bank =>
    unfold Slot.loadChr
    dsimp only
    split
    · exact ih
    · exact ih.next (.writeBlock _ _ _)
  | setMirroring mirroring => exact ih.next (.setMirroring _ mirroring)
  | setIrq | note => exact ih

namespace System

theorem reachable_initBoard {system : System} (h : system.hardware.ppu.Reachable)
    (kind : ResetKind) : (system.initBoard kind).hardware.ppu.Reachable :=
  Slot.reachable_run (Board.run_init system.cartridge.image system.startSlot
    system.cartridge.pristine kind) (h.next (.setChrWritable _ system.cartridge.image.hasChrRam))

theorem reachable_step {a b : System} (step : Step a b) (h : a.hardware.ppu.Reachable) :
    b.hardware.ppu.Reachable := by
  cases step with
  | ppu f step => exact h.next (.step step)
  | apu | io | writeWorkRam | writeSave => exact h
  | writeBoard addr data =>
    exact Slot.reachable_run
      (Board.run_write a.cartridge.image a.slot a.cartridge.board addr data) h
  | preLine line =>
    exact Slot.reachable_run
      (Board.run_preLine a.cartridge.image a.slot a.cartridge.board line) h
  | hblank line =>
    exact Slot.reachable_run
      (Board.run_hblank a.cartridge.image a.slot a.cartridge.board line) h
  | vblank =>
    exact Slot.reachable_run (Board.run_vblank a.cartridge.image a.slot a.cartridge.board) h
  | resetBoard => exact reachable_initBoard h .soft

theorem invariant_reachable (registry : Registry) :
    Invariant registry fun system => system.hardware.ppu.Reachable where
  powerOn := by
    intro source files cartridge load
    have hnew : (plugged {} cartridge).hardware.ppu.Reachable := .refl
    exact reachable_initBoard hnew .power
  step := reachable_step
  forget h := h
  load _ h := h

end System

/-- After any sequence of requests, the PPU of the console is in a reachable state. -/
theorem Console.reachable_after (registry : Registry) (turns : List Turn) {cartridge : Cartridge}
    (hplugged : (({ registry } : Console).after turns).cartridge = some cartridge) :
    (({ registry } : Console).after turns).hardware.ppu.Reachable :=
  (holds_after (System.invariant_reachable registry) turns).system cartridge hplugged

end Nes
