/-
  What can happen to the console while a cartridge is plugged in, one part at a time.

  `Ppu.Step` is one operation of the PPU: a register access, sprite memory written by DMA, the
  NMI edge taken, the start of a line, a line rendered, the reset button. `System.Step` is one
  operation of one part of the system: such a step of the PPU, a change of the APU or of what is
  behind the I/O addresses, a byte written into work or save RAM, one hook of the board, or the
  board started over by the reset button.

  A read and a write by the CPU (`run_read`, `run_write`), sprite DMA included, any sequence of
  events (`run_follow`), a scanline and a frame (`run_frame`) are sequences of such steps. An
  invariant of the system is proved by a look at the steps (`System.Run.keeps`).
-/
import Nes.Console.Scan
import Nes.Proofs.Cpu.Accesses

namespace Nes

/-- One operation of the PPU. -/
inductive Ppu.Step : Ppu → Ppu → Prop
  | readRegister (ppu : Ppu) (register : PpuRegister) : Step ppu (ppu.readRegister register).2
  | writeRegister (ppu : Ppu) (register : PpuRegister) (value : UInt8) :
      Step ppu (ppu.writeRegister register value)
  | oamWriteBlock (ppu : Ppu) (start : UInt8) (data : Bytes) :
      Step ppu (ppu.oamWriteBlock start data)
  | takeNmi (ppu : Ppu) : Step ppu ppu.takeNmi.2
  | preRender (ppu : Ppu) (line : Nat) : Step ppu (ppu.preRender line)
  | renderScanline (ppu : Ppu) (line : Nat) (picture : Option Picture) :
      Step ppu (ppu.renderScanline line picture).2
  | reset (ppu : Ppu) : Step ppu (ppu.reset .soft)

namespace System

/-- One operation of one part of the system. -/
inductive Step : System → System → Prop
  | ppu (system : System) (f : Ppu → Ppu)
      (step : system.hardware.ppu.Step (f system.hardware.ppu)) :
      Step system (system.mapPpu f)
  | apu (system : System) (f : Apu → Apu) : Step system (system.mapApu f)
  | io (system : System) (f : IoBlock → IoBlock) : Step system (system.mapIo f)
  | writeWorkRam (system : System) (offset : Nat) (value : UInt8) :
      Step system (system.mapWorkRam (·.write offset value))
  | writeSave (system : System) (offset : Nat) (value : UInt8) :
      Step system (system.mapSave (·.write offset value))
  | writeBoard (system : System) (addr : UInt16) (data : UInt8) :
      Step system (system.writeBoard addr data)
  | preLine (system : System) (line : Nat) : Step system (system.preLine line)
  | hblank (system : System) (line : Nat) : Step system (system.hblank line)
  | vblank (system : System) : Step system system.vblank
  | resetBoard (system : System) : Step system (system.initBoard .soft)

/-- Any number of steps, one after the other. -/
def Run : System → System → Prop := Relation.ReflTransGen Step

namespace Run

theorem refl (system : System) : Run system system := Relation.ReflTransGen.refl

theorem trans {a b c : System} (h₁ : Run a b) (h₂ : Run b c) : Run a c :=
  Relation.ReflTransGen.trans h₁ h₂

theorem one {a b : System} (h : Step a b) : Run a b := Relation.ReflTransGen.single h

/-- A run, and one more step. -/
theorem next {a b c : System} (h₁ : Run a b) (h₂ : Step b c) : Run a c :=
  Relation.ReflTransGen.tail h₁ h₂

/-- What every step keeps, a run keeps. -/
theorem keeps {P : System → Prop} (step : ∀ {a b : System}, Step a b → P a → P b) {a b : System}
    (h : Run a b) (ha : P a) : P b := by
  induction h with
  | refl => exact ha
  | tail _ next ih => exact step next ih

end Run

/-- The image stays in the cartridge, and so does the board as it was built. -/
theorem Step.image_eq {a b : System} (h : Step a b) :
    b.cartridge.image = a.cartridge.image ∧ b.cartridge.pristine = a.cartridge.pristine := by
  cases h with
  | ppu | apu | io | writeWorkRam | writeSave => exact ⟨rfl, rfl⟩
  | writeBoard | preLine | hblank | vblank | resetBoard => exact ⟨rfl, rfl⟩

theorem Run.image_eq {a b : System} (h : Run a b) :
    b.cartridge.image = a.cartridge.image ∧ b.cartridge.pristine = a.cartridge.pristine := by
  induction h with
  | refl => exact ⟨rfl, rfl⟩
  | tail _ step ih => exact ⟨step.image_eq.1.trans ih.1, step.image_eq.2.trans ih.2⟩

/-! ## What the board reaches -/

/-- What the board reaches. -/
def slot (system : System) : Slot :=
  ⟨system.hardware.map, system.hardware.ppu, system.cartridge.irq, system.journal⟩

/-- What the board reaches when it starts over. -/
def startSlot (system : System) : Slot :=
  ⟨system.hardware.map,
    { system.hardware.ppu with chrWritable := system.cartridge.image.hasChrRam }, false,
    system.journal⟩

theorem onBoard_slot (system : System) (act : Board → Image → Slot → Board × Slot) :
    (system.onBoard act).slot =
      (act system.cartridge.board system.cartridge.image system.slot).2 := rfl

theorem initBoard_slot (system : System) (kind : ResetKind) :
    (system.initBoard kind).slot =
      (system.cartridge.pristine.init system.cartridge.image kind system.startSlot).2 := rfl

/-! ## Accesses of the CPU -/

theorem askPpu_snd (system : System) {A : Type} (f : Ppu → A × Ppu) :
    (system.askPpu f).2 = system.mapPpu fun ppu => (f ppu).2 := rfl

theorem run_readIo (system : System) (addr : UInt16) : Run system (system.readIo addr).2 := by
  unfold readIo
  dsimp only
  split
  · exact .one (.apu system fun apu => apu.readStatus.2)
  · split
    · exact .one (.io system fun io => { io with pad1 := io.pad1.read.2 })
    · split
      · exact .one (.io system fun io => { io with pad2 := io.pad2.read.2 })
      · exact .refl system

theorem run_access (system : System) (addr : UInt16) : Run system (system.access addr).2 := by
  unfold access
  split
  · exact .refl system
  · rw [askPpu_snd]
    exact .one (.ppu system (fun ppu => (ppu.readRegister _).2) (.readRegister _ _))
  · exact run_readIo system addr
  · exact .refl system
  · exact .refl system
  · exact .refl system

theorem run_read (system : System) (addr : UInt16) : Run system (system.read addr).2 :=
  (run_access system addr).next (.io _ (·.drive (system.access addr).1))

theorem run_readFrom (system : System) (addr : UInt16) (out : Bytes) (count : Nat) :
    Run system (system.readFrom addr out count).2 := by
  induction count generalizing system addr out with
  | zero => exact .refl system
  | succ count ih => exact (run_read system addr).trans (ih _ _ _)

theorem run_spriteDma (system : System) (page : UInt8) : Run system (system.spriteDma page) := by
  unfold spriteDma
  have hread := run_readFrom system (page.toUInt16 * 256) (Array.mkEmpty 256) 256
  -- the 256 reads stay closed from here on
  generalize system.readFrom (page.toUInt16 * 256) (Array.mkEmpty 256) 256 = result at hread ⊢
  obtain ⟨bytes, middle⟩ := result
  have hoam := hread.next
    (.ppu middle (fun ppu => ppu.oamWriteBlock ppu.oamAddress bytes) (.oamWriteBlock _ _ bytes))
  exact hoam.next (.io _ _)

theorem run_writeIo (system : System) (addr : UInt16) (data : UInt8) :
    Run system (system.writeIo addr data) := by
  unfold writeIo
  split
  · exact run_spriteDma system data
  · split
    · exact .one (.io system _)
    · exact .one (.apu system _)

theorem run_write (system : System) (addr : UInt16) (data : UInt8) :
    Run system (system.write addr data) := by
  have hdrive : Run system (system.mapIo (·.drive data)) := .one (.io system _)
  unfold write
  dsimp only
  split
  · exact hdrive.next (.writeBoard _ addr data)
  · split
    · exact hdrive.next (.writeWorkRam _ _ data)
    · exact hdrive.next (.ppu _ (·.writeRegister _ data) (.writeRegister _ _ data))
    · exact hdrive.trans (run_writeIo _ addr data)
    · exact hdrive.next (.writeSave _ _ data)
    · exact hdrive
    · exact hdrive

theorem run_takeNmi (system : System) : Run system system.takeNmi.2 :=
  .one (.ppu system (·.takeNmi.2) (.takeNmi _))

theorem run_takeStall (system : System) : Run system system.takeStall.2 :=
  .one (.io system fun io => { io with stall := 0 })

theorem run_of_access {a b : System} (h : Bus.Access a b) : Run a b := by
  cases h with
  | read addr => exact run_read a addr
  | write addr value => exact run_write a addr value
  | takeNmi => exact run_takeNmi a
  | takeStall => exact run_takeStall a

/-- What the CPU does in any number of accesses. -/
theorem run_of_accesses {a b : System} (h : Bus.Run a b) : Run a b :=
  h.keeps (P := Run a) (fun access ih => ih.trans (run_of_access access)) (.refl a)

/-! ## Events -/

/-- The reset button, before the CPU starts over. -/
def pressReset (system : System) : System :=
  ((system.initBoard .soft).mapPpu (·.reset .soft)).mapApu (·.reset .soft)

theorem run_pressReset (system : System) : Run system system.pressReset :=
  ((Run.one (.resetBoard system)).next (.ppu _ (·.reset .soft) (.reset _))).next
    (.apu _ (·.reset .soft))

/-- What reaches the cartridge while the console is on: the CPU on its bus, the scanlines, and
    the reset button. -/
inductive Event
  | read (addr : UInt16)
  | write (addr : UInt16) (data : UInt8)
  | preLine (line : Nat)
  | render (line : Nat) (picture : Option Picture)
  | hblank (line : Nat)
  | vblank
  | reset

/-- The system after an event. -/
def happen (system : System) : Event → System
  | .read addr => (system.read addr).2
  | .write addr data => system.write addr data
  | .preLine line => system.preLine line
  | .render line picture => system.mapPpu fun ppu => (ppu.renderScanline line picture).2
  | .hblank line => system.hblank line
  | .vblank => system.vblank
  | .reset => system.pressReset

/-- The system after a sequence of events. -/
def follow (system : System) (events : List Event) : System := events.foldl happen system

theorem run_happen (system : System) (event : Event) : Run system (system.happen event) := by
  cases event with
  | read addr => exact run_read system addr
  | write addr data => exact run_write system addr data
  | preLine line => exact .one (.preLine system line)
  | render line picture =>
    exact .one (.ppu system (fun ppu => (ppu.renderScanline line picture).2)
      (.renderScanline _ line picture))
  | hblank line => exact .one (.hblank system line)
  | vblank => exact .one (.vblank system)
  | reset => exact run_pressReset system

theorem run_follow (system : System) (events : List Event) : Run system (system.follow events) := by
  induction events generalizing system with
  | nil => exact .refl system
  | cons event events ih => exact (run_happen system event).trans (ih _)

end System

/-! ## Scanlines and frames -/

namespace Scan

/-- The system of a scan when the PPU is about to render a line. -/
def beforeLine (system : System) (line : Nat) : System :=
  ((if line = vblankLine then system.vblank else system).mapPpu (·.preRender line)).preLine line

theorem run_beforeLine (system : System) (line : Nat) :
    System.Run system (beforeLine system line) := by
  have hvblank : System.Run system (if line = vblankLine then system.vblank else system) := by
    split
    · exact .one (.vblank _)
    · exact .refl _
  exact (hvblank.next (.ppu _ (·.preRender line) (.preRender _ line))).next (.preLine _ line)

theorem draw_machine (scan : Scan) (line : Nat) :
    (scan.draw line).machine =
      ⟨scan.machine.cpu, ((beforeLine scan.machine.bus line).mapPpu fun ppu =>
        (ppu.renderScanline line scan.picture).2).hblank line⟩ := rfl

theorem run_draw (scan : Scan) (line : Nat) :
    System.Run scan.machine.bus (scan.draw line).machine.bus := by
  rw [draw_machine]
  have hrender := (run_beforeLine scan.machine.bus line).next
    (.ppu _ (fun ppu => (ppu.renderScanline line scan.picture).2) (.renderScanline _ line _))
  exact hrender.next (.hblank _ line)

theorem run_compute (scan : Scan) (line : Nat) :
    System.Run scan.machine.bus (scan.compute line).machine.bus :=
  System.run_of_accesses (scan.machine.run_runLine (UInt16.ofNat line))

theorem run_listen (scan : Scan) : System.Run scan.machine.bus scan.listen.machine.bus := by
  unfold listen
  dsimp only
  exact .one (.apu scan.machine.bus fun apu => (apu.slice (peekMemory _ _ _)).2)

theorem run_line (scan : Scan) (line : Nat) :
    System.Run scan.machine.bus (scan.line line).machine.bus := by
  have h := (run_draw scan line).trans (run_compute _ line)
  unfold Scan.line
  dsimp only
  split
  · exact h.trans (run_listen _)
  · exact h

theorem run_lines (scan : Scan) (lines : List Nat) :
    System.Run scan.machine.bus (lines.foldl Scan.line scan).machine.bus := by
  induction lines generalizing scan with
  | nil => exact .refl _
  | cons line lines ih => exact (run_line scan line).trans (ih _)

theorem run_frame (scan : Scan) : System.Run scan.machine.bus scan.frame.machine.bus := by
  unfold frame
  exact run_lines scan _

end Scan
end Nes
