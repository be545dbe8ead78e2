/-
  What holds of the picture processing unit after any calls.

  `Call` is everything that can be done to the chip, with any arguments, and `Reply` what comes
  back. The chip itself makes a call plainly (`run`); the packed chip makes it in checked
  arithmetic, with the bounds of every table (`run?`), and has nothing left to say once something
  goes wrong. One call goes through, with the same reply and the same chip afterwards (`run?_eq`),
  as long as the sprite pixels are opaque, which they always are; by induction so do any calls
  (`runAll?_eq`).

  `Sound` says what holds of the packed chip then: the scroll registers have 15 bits and three, the
  aliases of the nametables and the colours are those of the mirroring and the mask, the palette has
  six bits an entry, and a byte of a sprite pixel is marked as one and has a colour.
-/
import Nes.Proofs.Ppu.Packed.Drawing
import Nes.Proofs.Ppu.Packed.Registers

namespace Nes

open Checked

/-! ## Invariants -/

/-- All palette entries have six bits. -/
def VideoMemory.SixBit (m : VideoMemory) : Prop := ∀ i : Fin 32, (m.palette.get i).toNat < 64

namespace VideoMemory

theorem sixBit_new : ({} : VideoMemory).SixBit := by
  intro i
  have hzero : ({} : VideoMemory).palette.get i = 0 := Vector.getElem_replicate i.isLt
  rw [hzero]
  decide

theorem SixBit.write {m : VideoMemory} (h : m.SixBit) (addr : Nat) (value : UInt8) :
    (m.write addr value).SixBit := by
  intro i
  have hkept : (kept (.palette i) value).toNat < 64 := by
    have hand : kept (.palette i) value = value % 64 := and_sixBits value
    rw [hand, UInt8.toNat_mod]
    exact Nat.mod_lt _ (by decide)
  have hcell := byteAt_write m addr value (.palette i)
  have hentry : (m.write addr value).palette.get i = (m.write addr value).byteAt (.palette i) := rfl
  rw [hentry, hcell]
  split
  · exact hkept
  · exact h i

theorem SixBit.writeBlock {m : VideoMemory} (h : m.SixBit) (addr : Nat) (data : Bytes) :
    (m.writeBlock addr data).SixBit := by
  have heach (list : List UInt8) : (m.writeEach addr list).SixBit := by
    induction list generalizing m addr with
    | nil => exact h
    | cons value list ih => exact ih (h.write addr value) (addr + 1)
  unfold VideoMemory.writeBlock
  rw [writeRuns_eq]
  exact heach _

end VideoMemory

namespace Ppu

theorem sixBit_operation {a b : Ppu} (operation : Operation a b) (h : a.memory.SixBit) :
    b.memory.SixBit := by
  cases operation with
  | step step =>
    cases step with
    | readRegister register => rwa [memory_readRegister]
    | writeRegister register value =>
      cases register with
      | data =>
        unfold writeRegister writeData
        dsimp only
        split
        · exact h.write _ value
        · exact h
      | control | mask | status | oamAddress | oamData | scroll | address => exact h
    | oamWriteBlock start data =>
      unfold oamWriteBlock
      rwa [memory_oamWriteFrom]
    | preRender line => rwa [memory_preRender]
    | renderScanline line picture => rwa [memory_renderScanline]
    | takeNmi | reset => exact h
  | power => exact VideoMemory.sixBit_new
  | writeByte addr value => exact h.write addr value
  | writeBlock addr data => exact h.writeBlock addr data
  | setMirroringCode code =>
    unfold setMirroringCode
    split
    · exact h
    · exact h
  | oamWrite | setMirroring | setChrWritable => exact h

theorem marked_operation {a b : Ppu} (operation : Operation a b) (h : a.sprites.Marked) :
    b.sprites.Marked := by
  cases operation with
  | step step => exact marked_step step h
  | power => exact SpriteLine.marked_empty
  | setMirroringCode code =>
    unfold setMirroringCode
    split
    · exact h
    · exact h
  | writeByte | writeBlock | oamWrite | setMirroring | setChrWritable => exact h

theorem sixBit_of_reachable {ppu : Ppu} (reachable : ppu.Reachable) : ppu.memory.SixBit :=
  reachable.keeps VideoMemory.sixBit_new sixBit_operation

theorem marked_of_reachable {ppu : Ppu} (reachable : ppu.Reachable) : ppu.sprites.Marked :=
  reachable.keeps SpriteLine.marked_empty marked_operation

end Ppu

/-- What holds of the chip between calls. -/
structure PackedPpu.Sound (ppu : PackedPpu) : Prop where
  v : ppu.scroll.v < 0x8000
  t : ppu.scroll.t < 0x8000
  fineX : ppu.scroll.fineX < 8
  layout : ppu.memory.layout = ppu.memory.mirroring.layout
  palette : ∀ i : Fin 32, (ppu.memory.palette.get i).toNat < 64
  colors : ppu.colors = .of ppu.mask.emphasis
  /-- A sprite pixel is marked as one and has a colour. -/
  pixels : ∀ x : Fin 256, ppu.sprites.pixels.get x ≠ 0 →
    bit (ppu.sprites.pixels.get x) 7 = true ∧ (ppu.sprites.pixels.get x).toNat % 4 ≠ 0
  /-- Where the first sprite has a pixel, the line says so. -/
  first : ∀ x : Fin 256, bit (ppu.sprites.pixels.get x) 5 = true → ppu.sprites.hasFirst = true

theorem Ppu.Reachable.sound {ppu : Ppu} (reachable : ppu.Reachable) : ppu.pack.Sound := by
  have settled := settled_of_reachable reachable
  have hpixel (x : Fin 256) : ppu.pack.sprites.pixels.get x = cellByte (ppu.sprites.cell x) :=
    Vector.getElem_map cellByte x.isLt
  have hcell {x : Fin 256} {dot : SpriteDot} (h : ppu.sprites.cell x = some dot) :
      ppu.sprites.cells[x.val]? = some (some dot) := by
    rw [SpriteLine.getElem?_cells, h]
  have hsolid {x : Fin 256} {dot : SpriteDot} (h : ppu.sprites.cell x = some dot) : dot.Opaque :=
    settled.sprites x.val dot (hcell h)
  constructor
  · exact ppu.scroll.v.toNat_lt
  · exact ppu.scroll.t.toNat_lt
  · exact ppu.scroll.fineX.isLt
  · exact wired_of_reachable reachable
  · exact sixBit_of_reachable reachable
  · exact settled.colors
  · intro x some
    rw [hpixel] at some ⊢
    rw [bit_present]
    cases hx : ppu.sprites.cell x with
    | none =>
      rw [hx] at some
      exact absurd rfl some
    | some dot =>
      have hdot := hsolid hx
      have hcolor := hdot.color
      have hbyte : (cellByte (.some dot)).toNat = _ := SpriteDot.toNat_toByte hdot.entry_lt
      refine ⟨rfl, ?_⟩
      rw [hbyte]
      split <;> split <;> omega
  · intro x hfirst
    rw [hpixel] at hfirst
    have hentry (dot : SpriteDot) (h : ppu.sprites.cell x = some dot) : dot.entry.toNat < 16 :=
      (hsolid h).entry_lt
    obtain ⟨dot, hx, hdot⟩ := (bit_cellByte hentry).mp hfirst
    exact marked_of_reachable reachable x.val dot (hcell hx) hdot

namespace Ppu

/-! ## Calls -/

/-- Something that is done to the chip. -/
inductive Call
  | readRegister (register : PpuRegister)
  | writeRegister (register : PpuRegister) (value : UInt8)
  | readStatus
  | readByte (addr : UInt16)
  | writeByte (addr : UInt16) (value : UInt8)
  | readBlock (addr : UInt16) (size : Nat)
  | writeBlock (addr : UInt16) (data : Bytes)
  | oamRead (i : UInt8)
  | oamWrite (i value : UInt8)
  | oamWriteBlock (start : UInt8) (data : Bytes)
  | setMirroring (mirroring : Mirroring)
  | setMirroringCode (code : UInt8)
  | setChrWritable (chrWritable : Bool)
  | takeNmi
  | preRender (line : UInt16)
  | renderScanline (line : UInt16) (picture : Option Picture)
  | reset (kind : ResetKind)

/-- What a call gives back. -/
inductive Reply
  | nothing
  | byte (value : UInt8)
  | bytes (data : Bytes)
  | flag (set : Bool)
  | picture (picture : Option Picture)

namespace Call

/-- The reply to a call, and the chip after it. -/
def run (ppu : Ppu) : Call → Reply × Ppu
  | readRegister register =>
    (.byte (ppu.readRegister register).1, (ppu.readRegister register).2)
  | writeRegister register value => (.nothing, ppu.writeRegister register value)
  | readStatus => (.byte ppu.readStatus.1, ppu.readStatus.2)
  | readByte addr => (.byte (ppu.readByte addr.toNat), ppu)
  | writeByte addr value => (.nothing, ppu.writeByte addr.toNat value)
  | readBlock addr size => (.bytes (ppu.readBlock addr.toNat size), ppu)
  | writeBlock addr data => (.nothing, ppu.writeBlock addr.toNat data)
  | oamRead i => (.byte (ppu.oamRead i), ppu)
  | oamWrite i value => (.nothing, ppu.oamWrite i value)
  | oamWriteBlock start data => (.nothing, ppu.oamWriteBlock start data)
  | setMirroring mirroring => (.nothing, ppu.setMirroring mirroring)
  | setMirroringCode code => (.nothing, ppu.setMirroringCode code)
  | setChrWritable chrWritable => (.nothing, { ppu with chrWritable })
  | takeNmi => (.flag ppu.takeNmi.1, ppu.takeNmi.2)
  | preRender line => (.nothing, ppu.preRender line.toNat)
  | renderScanline line picture =>
    (.picture (ppu.renderScanline line.toNat picture).1,
      (ppu.renderScanline line.toNat picture).2)
  | reset kind => (.nothing, ppu.reset kind)

/-- `run`, checked. -/
def run? (ppu : PackedPpu) : Call → Option (Reply × PackedPpu)
  | readRegister register => do
    let (value, ppu) ← ppu.readRegister? register
    return (.byte value, ppu)
  | writeRegister register value => do
    let ppu ← ppu.writeRegister? register value
    return (.nothing, ppu)
  | readStatus => some (.byte ppu.readStatus.1, ppu.readStatus.2)
  | readByte addr => do
    let value ← ppu.memory.read? addr.toNat
    return (.byte value, ppu)
  | writeByte addr value => do
    let memory ← ppu.memory.write? addr.toNat value
    return (.nothing, { ppu with memory })
  | readBlock addr size => do
    let data ← ppu.memory.readBlock? addr.toNat size
    return (.bytes data, ppu)
  | writeBlock addr data => do
    let memory ← ppu.memory.writeBlock? addr.toNat data
    return (.nothing, { ppu with memory })
  | oamRead i => do
    let value ← ppu.oamRead? i
    return (.byte value, ppu)
  | oamWrite i value => do
    let ppu ← ppu.oamWrite? i value
    return (.nothing, ppu)
  | oamWriteBlock start data => do
    let ppu ← ppu.oamWriteFrom? start data.toList
    return (.nothing, ppu)
  | setMirroring mirroring =>
    some (.nothing, { ppu with memory := ppu.memory.setMirroring mirroring })
  | setMirroringCode code => some (.nothing, ppu.setMirroringCode code)
  | setChrWritable chrWritable => some (.nothing, { ppu with chrWritable })
  | takeNmi => some (.flag ppu.nmiLatch, { ppu with nmiLatch := false })
  | preRender line => some (.nothing, ppu.preRender line.toNat)
  | renderScanline line picture => do
    let (picture, ppu) ← ppu.renderScanline? line.toNat picture
    return (.picture picture, ppu)
  | reset kind => do
    let ppu ← ppu.reset? kind
    return (.nothing, ppu)

/-- A call leads from one reachable chip to another. -/
theorem reachable_run {ppu : Ppu} (reachable : ppu.Reachable) (call : Call) :
    (call.run ppu).2.Reachable := by
  cases call with
  | readRegister register => exact reachable.next (.step (.readRegister _ _))
  | writeRegister register value => exact reachable.next (.step (.writeRegister _ _ _))
  | readStatus => exact reachable.next (.step (.readRegister _ .status))
  | writeByte addr value => exact reachable.next (.writeByte _ _ _)
  | writeBlock addr data => exact reachable.next (.writeBlock _ _ _)
  | oamWrite i value => exact reachable.next (.oamWrite _ _ _)
  | oamWriteBlock start data => exact reachable.next (.step (.oamWriteBlock _ _ _))
  | setMirroring mirroring => exact reachable.next (.setMirroring _ _)
  | setMirroringCode code => exact reachable.next (.setMirroringCode _ _)
  | setChrWritable chrWritable => exact reachable.next (.setChrWritable _ _)
  | takeNmi => exact reachable.next (.step (.takeNmi _))
  | preRender line => exact reachable.next (.step (.preRender _ _))
  | renderScanline line picture => exact reachable.next (.step (.renderScanline _ _ _))
  | reset kind =>
    cases kind with
    | power => exact reachable.next (.power _)
    | soft => exact reachable.next (.step (.reset _))
  | readByte | readBlock | oamRead => exact reachable

/-- A checked call goes through, and does what the call does. -/
theorem run?_eq {ppu : Ppu} (solid : ppu.sprites.Opaque) (call : Call) :
    call.run? ppu.pack = some ((call.run ppu).1, (call.run ppu).2.pack) := by
  cases call with
  | readRegister register => exact bind_some (ppu.readRegister?_eq register)
  | writeRegister register value => exact bind_some (ppu.writeRegister?_eq register value)
  | readByte addr => exact bind_some (ppu.memory.read?_eq _)
  | writeByte addr value => exact bind_some (ppu.memory.write?_eq _ value)
  | readBlock addr size => exact bind_some (ppu.memory.readBlock?_eq _ size)
  | writeBlock addr data => exact bind_some (ppu.memory.writeBlock?_eq _ data)
  | oamRead i => exact bind_some (ppu.oamRead?_eq i)
  | oamWrite i value => exact bind_some (ppu.oamWrite?_eq i value)
  | oamWriteBlock start data => exact bind_some (ppu.oamWriteFrom?_eq start data.toList)
  | setMirroringCode code =>
    exact congrArg (fun ppu => some (Reply.nothing, ppu)) (pack_setMirroringCode ppu code).symm
  | preRender line =>
    exact congrArg (fun ppu => some (Reply.nothing, ppu)) (pack_preRender ppu line.toNat).symm
  | renderScanline line picture =>
    exact bind_some (renderScanline?_eq solid line.toNat_lt picture)
  | reset kind => exact bind_some (ppu.reset?_eq kind)
  | readStatus | setMirroring | setChrWritable | takeNmi => rfl

end Call

/-! ## Any calls -/

/-- The replies to calls, and the chip after them. -/
def runAll (ppu : Ppu) : List Call → List Reply × Ppu
  | [] => ([], ppu)
  | call :: calls =>
    let (reply, ppu) := call.run ppu
    let (replies, ppu) := ppu.runAll calls
    (reply :: replies, ppu)

/-- `runAll`, checked. -/
def runAll? (ppu : PackedPpu) : List Call → Option (List Reply × PackedPpu)
  | [] => some ([], ppu)
  | call :: calls => do
    let (reply, ppu) ← call.run? ppu
    let (replies, ppu) ← runAll? ppu calls
    return (reply :: replies, ppu)

theorem reachable_runAll {ppu : Ppu} (reachable : ppu.Reachable) (calls : List Call) :
    (ppu.runAll calls).2.Reachable := by
  induction calls generalizing ppu with
  | nil => exact reachable
  | cons call calls ih => exact ih (call.reachable_run reachable)

theorem runAll?_eq {ppu : Ppu} (reachable : ppu.Reachable) (calls : List Call) :
    runAll? ppu.pack calls = some ((ppu.runAll calls).1, (ppu.runAll calls).2.pack) := by
  induction calls generalizing ppu with
  | nil => rfl
  | cons call calls ih =>
    have hcall := call.run?_eq (settled_of_reachable reachable).sprites
    exact (bind_some hcall).trans (bind_some (ih (call.reachable_run reachable)))

/-- Any calls of the new chip go through, in checked arithmetic and with every index in its table.
    They reply what the chip replies and do what it does, and the packed chip is sound after
    them. -/
theorem calls_stay_sound (calls : List Call) :
    runAll? {} calls =
        some ((({} : Ppu).runAll calls).1, (({} : Ppu).runAll calls).2.pack) ∧
      (({} : Ppu).runAll calls).2.pack.Sound := by
  have hnew : ({} : Ppu).Reachable := .refl
  refine ⟨?_, (reachable_runAll hnew calls).sound⟩
  rw [← pack_new]
  exact runAll?_eq hnew calls

end Ppu
end Nes
