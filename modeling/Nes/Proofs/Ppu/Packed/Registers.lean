/-
  The chip's other operations, with every index and every result looked at: accesses to its
  registers and to sprite memory, switches of the nametables, the start of a line, and resets.

  The step of the address at $2007 wraps and needs no check, and neither does the address of sprite
  memory. What is checked is the address of the nametable byte under the palette, the accesses to
  memories, and the colours of the screen when they are computed again.

  On packed state each operation gives the packed state that the plain one gives.
-/
import Nes.Proofs.Ppu.Packed.Sprites
import Nes.Proofs.Ppu.PlainPicture

namespace Nes

open Checked

/-! ## Colours -/

/-- `tint`, checked. -/
def tint? (channel : UInt8) (emphasized : Bool) : Option UInt8 :=
  if emphasized then do
    let lifted ← add? byteTop (channel.toNat / 2) 128
    return UInt8.ofNat lifted
  else some (channel / 2)

theorem tint?_eq (channel : UInt8) (emphasized : Bool) :
    tint? channel emphasized = some (tint channel emphasized) := by
  cases emphasized with
  | true =>
    have hchannel := channel.toNat_lt
    have hsum : channel.toNat / 2 + 128 ≤ byteTop := by
      unfold byteTop
      omega
    refine (bind_some (add?_eq hsum)).trans (congrArg some (UInt8.toNat_inj.mp ?_))
    rw [UInt8.toNat_ofNat', toNat_tint, if_pos rfl]
    omega
  | false => rfl

namespace Emphasis

/-- `apply`, checked. -/
def applied? (e : Emphasis) (rgb : UInt8 × UInt8 × UInt8) : Option UInt32 :=
  if e = {} then some (packRgb rgb.1 rgb.2.1 rgb.2.2)
  else do
    let red ← tint? rgb.1 e.red
    let green ← tint? rgb.2.1 e.green
    let blue ← tint? rgb.2.2 e.blue
    return packRgb red green blue

/-- `colors`, checked. -/
def colors? (e : Emphasis) : Option (Vector UInt32 64) := masterPalette.mapM e.applied?

theorem applied?_eq (e : Emphasis) (rgb : UInt8 × UInt8 × UInt8) :
    e.applied? rgb = some (e.apply rgb) := by
  obtain ⟨red, green, blue⟩ := rgb
  unfold applied? apply
  dsimp only
  rw [tint?_eq, tint?_eq, tint?_eq]
  split <;> rfl

theorem colors?_eq (e : Emphasis) : e.colors? = some e.colors := by
  unfold colors? colors
  rw [funext e.applied?_eq]
  exact Vector.mapM_pure e.apply

end Emphasis

/-- `update`, checked. -/
def ColorTable.update? (table : ColorTable) (emphasis : Emphasis) : Option ColorTable :=
  if emphasis = table.emphasis then some table
  else do
    let colors ← emphasis.colors?
    return { emphasis, colors }

theorem ColorTable.update?_eq (table : ColorTable) (emphasis : Emphasis) :
    table.update? emphasis = some (table.update emphasis) := by
  unfold update? update
  split
  · rfl
  · exact bind_some emphasis.colors?_eq

namespace PackedPpu

variable (ppu : PackedPpu)

/-! ## Sprite memory -/

/-- `Ppu.oamRead`, checked. -/
def oamRead? (i : UInt8) : Option UInt8 := ppu.oam[i.toNat]?

/-- `Ppu.oamWrite`, checked. -/
def oamWrite? (i value : UInt8) : Option PackedPpu := do
  let oam ← set? ppu.oam i.toNat value
  return { ppu with oam }

/-- `Ppu.oamWriteFrom`, checked. -/
def oamWriteFrom? (ppu : PackedPpu) (start : UInt8) (data : List UInt8) : Option PackedPpu :=
  match data with
  | [] => some ppu
  | value :: rest => do
    let ppu ← ppu.oamWrite? start value
    ppu.oamWriteFrom? (start + 1) rest

/-! ## Registers -/

/-- `Ppu.advanceData`. -/
def advanceData : PackedPpu :=
  { ppu with
    scroll := { ppu.scroll with v := PackedAddress.advance ppu.scroll.v ppu.control.step } }

/-- `Ppu.writeControl`. -/
def writeControl (value : UInt8) : PackedPpu :=
  let control := Control.ofByte value
  let edge := !ppu.control.nmi && control.nmi && ppu.status.vblank
  { ppu with
    control
    scroll := ppu.scroll.writeTable value
    nmiLatch := ppu.nmiLatch || edge }

/-- `Ppu.writeMask`, checked. -/
def writeMask? (value : UInt8) : Option PackedPpu := do
  let mask := Mask.ofByte value
  let colors ← ppu.colors.update? mask.emphasis
  return { ppu with mask, colors }

/-- `Ppu.writeData`, checked. -/
def writeData? (value : UInt8) : Option PackedPpu :=
  let addr := ppu.scroll.v % 0x4000
  if ppu.chrWritable || 0x2000 ≤ addr then do
    let memory ← ppu.memory.write? addr value
    return { ppu with memory }.advanceData
  else some ppu.advanceData

/-- `Ppu.writeRegister`, checked. -/
def writeRegister? (register : PpuRegister) (value : UInt8) : Option PackedPpu :=
  let ppu := { ppu with latch := value }
  match register with
  | .control => some (ppu.writeControl value)
  | .mask => ppu.writeMask? value
  | .status => some ppu
  | .oamAddress => some { ppu with oamAddress := value }
  | .oamData => do
    let next ← ppu.oamWrite? ppu.oamAddress value
    return { next with oamAddress := ppu.oamAddress + 1 }
  | .scroll => some { ppu with scroll := ppu.scroll.writeScroll value }
  | .address => some { ppu with scroll := ppu.scroll.writeAddress value }
  | .data => ppu.writeData? value

/-- `Ppu.readStatus`. -/
def readStatus : UInt8 × PackedPpu :=
  (ppu.status.toByte ppu.latch,
    { ppu with
      status := { ppu.status with vblank := false }
      scroll := { ppu.scroll with second := false } })

/-- `Ppu.readData`, checked. -/
def readData? : Option (UInt8 × PackedPpu) :=
  let addr := ppu.scroll.v % 0x4000
  if 0x3F00 ≤ addr then do
    let below ← sub? addr 0x1000
    let readBuffer ← ppu.memory.read? below
    let value ← ppu.memory.read? addr
    return (value, { ppu with readBuffer }.advanceData)
  else do
    let readBuffer ← ppu.memory.read? addr
    return (ppu.readBuffer, { ppu with readBuffer }.advanceData)

/-- `Ppu.readRegister`, checked. -/
def readRegister? (register : PpuRegister) : Option (UInt8 × PackedPpu) :=
  match register with
  | .status => some ppu.readStatus
  | .oamData => do
    let value ← ppu.oamRead? ppu.oamAddress
    return (value, ppu)
  | .data => ppu.readData?
  | _ => some (ppu.latch, ppu)

/-! ## Nametables, lines and resets -/

/-- `Ppu.setMirroringCode`. -/
def setMirroringCode (code : UInt8) : PackedPpu :=
  match Mirroring.ofCode? code with
  | some mirroring => { ppu with memory := ppu.memory.setMirroring mirroring }
  | none => ppu

/-- `Ppu.preRender`. -/
def preRender (line : Nat) : PackedPpu :=
  if line = 0 then
    if ppu.mask.rendering then { ppu with scroll := { ppu.scroll with v := ppu.scroll.t } }
    else ppu
  else if line < visibleLines then
    if ppu.mask.rendering then
      { ppu with scroll :=
        { ppu.scroll with v := PackedAddress.toColumnOf ppu.scroll.v ppu.scroll.t } }
    else ppu
  else if line = vblankLine then
    { ppu with
      status := { ppu.status with vblank := true }
      nmiLatch := ppu.nmiLatch || ppu.control.nmi }
  else if line = preRenderLine then { ppu with status := {}, sprites := {} }
  else ppu

/-- `Ppu.reset`, checked. -/
def reset? : ResetKind → Option PackedPpu
  | .power => some {}
  | .soft => do
    let colors ← ppu.colors.update? {}
    return {
      memory := ppu.memory
      oam := ppu.oam
      colors
      chrWritable := ppu.chrWritable }

end PackedPpu

namespace Ppu

variable (ppu : Ppu)

theorem pack_new : ({} : Ppu).pack = {} := by
  unfold pack
  rw [SpriteLine.pack_empty]
  rfl

theorem oamRead?_eq (i : UInt8) : ppu.pack.oamRead? i = some (ppu.oamRead i) :=
  Vector.getElem?_eq_getElem i.toNat_lt

theorem oamWrite?_eq (i value : UInt8) :
    ppu.pack.oamWrite? i value = some (ppu.oamWrite i value).pack :=
  bind_some (set?_eq ppu.oam i.toNat_lt value)

theorem oamWriteFrom?_eq (start : UInt8) (data : List UInt8) :
    ppu.pack.oamWriteFrom? start data = some (ppu.oamWriteFrom start data).pack := by
  induction data generalizing ppu start with
  | nil => rfl
  | cons value data ih =>
    unfold PackedPpu.oamWriteFrom?
    exact (bind_some (ppu.oamWrite?_eq start value)).trans (ih _ _)

theorem pack_advanceData : ppu.advanceData.pack = ppu.pack.advanceData := by
  unfold advanceData PackedPpu.advanceData pack Scroll.pack
  dsimp only
  rw [VideoAddress.advance_toNat]

theorem pack_writeControl (value : UInt8) :
    (ppu.writeControl value).pack = ppu.pack.writeControl value := by
  have hscroll := ppu.scroll.pack_writeTable value
  unfold writeControl PackedPpu.writeControl pack
  dsimp only
  rw [hscroll]

theorem writeMask?_eq (value : UInt8) :
    ppu.pack.writeMask? value = some (ppu.writeMask value).pack :=
  bind_some (ppu.colors.update?_eq _)

theorem writeData?_eq (value : UInt8) :
    ppu.pack.writeData? value = some (ppu.writeData value).pack := by
  have hv : ppu.pack.scroll.v = ppu.scroll.v.toNat := rfl
  have hwritable : ppu.pack.chrWritable = ppu.chrWritable := rfl
  unfold PackedPpu.writeData? writeData
  rw [hv, hwritable, pack_advanceData]
  dsimp only
  split
  · exact bind_some (ppu.memory.write?_eq _ value)
  · rfl

theorem writeRegister?_eq (register : PpuRegister) (value : UInt8) :
    ppu.pack.writeRegister? register value = some (ppu.writeRegister register value).pack := by
  cases register with
  | control => exact congrArg some (pack_writeControl { ppu with latch := value } value).symm
  | mask => exact writeMask?_eq { ppu with latch := value } value
  | oamData => exact bind_some (oamWrite?_eq { ppu with latch := value } ppu.oamAddress value)
  | scroll =>
    have hscroll := ppu.scroll.pack_writeScroll value
    unfold PackedPpu.writeRegister? writeRegister pack
    dsimp only
    rw [hscroll]
  | address =>
    have hscroll := ppu.scroll.pack_writeAddress value
    unfold PackedPpu.writeRegister? writeRegister pack
    dsimp only
    rw [hscroll]
  | data => exact writeData?_eq { ppu with latch := value } value
  | status | oamAddress => rfl

theorem readData?_eq : ppu.pack.readData? = some (ppu.readData.1, ppu.readData.2.pack) := by
  have hv : ppu.pack.scroll.v = ppu.scroll.v.toNat := rfl
  unfold PackedPpu.readData? readData
  rw [hv]
  dsimp only
  generalize ppu.scroll.v.toNat % 0x4000 = addr
  split
  · next palette =>
    have hbelow : 0x1000 ≤ addr := by omega
    rw [pack_advanceData]
    have hread (addr : Nat) : ppu.pack.memory.read? addr = some (ppu.readByte addr) :=
      ppu.memory.read?_eq addr
    refine (bind_some (sub?_eq hbelow)).trans ?_
    rw [hread, hread]
    generalize ppu.readByte (addr - 0x1000) = beneath
    rfl
  · rw [pack_advanceData]
    exact bind_some (ppu.memory.read?_eq _)

theorem readRegister?_eq (register : PpuRegister) :
    ppu.pack.readRegister? register =
      some ((ppu.readRegister register).1, (ppu.readRegister register).2.pack) := by
  cases register with
  | oamData => exact bind_some (ppu.oamRead?_eq ppu.oamAddress)
  | data => exact ppu.readData?_eq
  | control | mask | status | oamAddress | scroll | address => rfl

theorem pack_setMirroringCode (code : UInt8) :
    (ppu.setMirroringCode code).pack = ppu.pack.setMirroringCode code := by
  unfold setMirroringCode PackedPpu.setMirroringCode
  cases Mirroring.ofCode? code <;> rfl

theorem pack_preRender (line : Nat) : (ppu.preRender line).pack = ppu.pack.preRender line := by
  have hrendering : ppu.pack.mask.rendering = ppu.rendering := rfl
  unfold preRender PackedPpu.preRender
  rw [hrendering]
  split
  · split <;> rfl
  · split
    · split
      · unfold pack Scroll.pack
        dsimp only
        rw [VideoAddress.toColumnOf_toNat]
      · rfl
    · split
      · rfl
      · split
        · unfold pack
          dsimp only
          rw [SpriteLine.pack_empty]
        · rfl

theorem reset?_eq (kind : ResetKind) : ppu.pack.reset? kind = some (ppu.reset kind).pack := by
  cases kind with
  | power => exact congrArg some pack_new.symm
  | soft =>
    refine (bind_some (ppu.colors.update?_eq {})).trans (congrArg some ?_)
    unfold reset pack
    dsimp only
    rw [SpriteLine.pack_empty]
    rfl

end Ppu
end Nes
