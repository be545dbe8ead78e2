/-
  Which addresses of video memory share a byte.

  `SameCell` says it without the decoder: the pattern tables have a byte for every address, the
  nametables one for every offset into a table and every table that the mirroring tells apart, and
  the palette 32, of which the backdrops of the sprite palettes are those of the background
  palettes. The decoder gives two addresses the same cell exactly then (`cell_eq_iff`), as long as
  the table of aliases is that of the mirroring (`Wired`), which every operation of the PPU leaves
  so (`wired_of_reachable`).

  A read after a write then sees the new byte at the addresses of its cell and the old byte at all
  others (`read_write`). Switching the nametables moves no byte, so back at the mirroring where it
  began the PPU is as it was (`eq_of_switched_back`).
-/
import Nes.Proofs.Board.Patterns
import Nes.Proofs.Ppu.Reachable

namespace Nes

/-! ## Addresses of one cell -/

namespace Mirroring

/-- Whether two logical nametables are one: 0 and 1 are the upper two, 2 and 3 those below. -/
def Identifies : Mirroring → Nat → Nat → Prop
  | horizontal, s, t => s / 2 = t / 2
  | vertical, s, t => s % 2 = t % 2
  | lower, _, _ => True
  | upper, _, _ => True
  | fourScreen, s, t => s = t

instance : (mirroring : Mirroring) → (s t : Nat) → Decidable (mirroring.Identifies s t)
  | horizontal, s, t => inferInstanceAs (Decidable (s / 2 = t / 2))
  | vertical, s, t => inferInstanceAs (Decidable (s % 2 = t % 2))
  | lower, _, _ => inferInstanceAs (Decidable True)
  | upper, _, _ => inferInstanceAs (Decidable True)
  | fourScreen, s, t => inferInstanceAs (Decidable (s = t))

/-- The aliases of a mirroring are the tables that it identifies. -/
theorem layout_get_eq_iff (mirroring : Mirroring) (s t : Fin 4) :
    mirroring.layout.get s = mirroring.layout.get t ↔ mirroring.Identifies s t := by
  revert s t
  cases mirroring <;> decide

end Mirroring

namespace VideoMemory

/-- The entry of the palette at an address, counted modulo 32; the entries $10, $14, $18 and $1C
    are $00, $04, $08 and $0C. -/
def entryAt (addr : Nat) : Nat :=
  if addr % 32 ∈ [0x10, 0x14, 0x18, 0x1C] then addr % 32 - 0x10 else addr % 32

/-- Two addresses share a byte, here for addresses of 14 bits. -/
def SameCell14 (mirroring : Mirroring) (a b : Nat) : Prop :=
  a < 0x2000 ∧ b < 0x2000 ∧ a = b ∨
    (0x2000 ≤ a ∧ a < 0x3F00) ∧ (0x2000 ≤ b ∧ b < 0x3F00) ∧
      a % 0x400 = b % 0x400 ∧ mirroring.Identifies (a / 0x400 % 4) (b / 0x400 % 4) ∨
    0x3F00 ≤ a ∧ 0x3F00 ≤ b ∧ entryAt a = entryAt b

/-- Two addresses share a byte. -/
def SameCell (mirroring : Mirroring) (a b : Nat) : Prop :=
  SameCell14 mirroring (a % 0x4000) (b % 0x4000)

instance (mirroring : Mirroring) (a b : Nat) : Decidable (SameCell14 mirroring a b) :=
  inferInstanceAs (Decidable (_ ∨ _))

instance (mirroring : Mirroring) (a b : Nat) : Decidable (SameCell mirroring a b) :=
  inferInstanceAs (Decidable (SameCell14 _ _ _))

/-- The table of aliases is that of the mirroring. -/
def Wired (m : VideoMemory) : Prop := m.layout = m.mirroring.layout

variable {m : VideoMemory}

/-! ## The decoder -/

theorem val_paletteIndex (addr : Nat) : (paletteIndex addr).val = entryAt addr := by
  unfold paletteIndex entryAt
  simp only [List.mem_cons, List.not_mem_nil, or_false]
  split
  · rw [val_wrap]
    split <;> omega
  · rw [val_wrap, if_neg (by omega)]

theorem paletteIndex_eq_iff (a b : Nat) :
    paletteIndex a = paletteIndex b ↔ entryAt a = entryAt b := by
  rw [Fin.ext_iff, val_paletteIndex, val_paletteIndex]

theorem val_nameIndex (layout : Vector (Fin 4) 4) (addr : Nat) :
    (nameIndex layout addr).val =
      (layout.get (wrap (addr / 0x400))).val * 0x400 + addr % 0x400 := by
  have htable := (layout.get (wrap (addr / 0x400))).isLt
  unfold nameIndex
  rw [val_wrap]
  omega

theorem nameIndex_eq_iff (wired : m.Wired) (a b : Nat) :
    nameIndex m.layout a = nameIndex m.layout b ↔
      a % 0x400 = b % 0x400 ∧ m.mirroring.Identifies (a / 0x400 % 4) (b / 0x400 % 4) := by
  have htables := m.mirroring.layout_get_eq_iff (wrap (a / 0x400)) (wrap (b / 0x400))
  rw [val_wrap, val_wrap] at htables
  have hlayout : m.layout = m.mirroring.layout := wired
  rw [Fin.ext_iff, val_nameIndex, val_nameIndex, hlayout, ← htables, Fin.ext_iff]
  omega

theorem cell_mod (m : VideoMemory) (addr : Nat) : m.cell (addr % 0x4000) = m.cell addr := by
  unfold cell
  simp only [Nat.mod_mod]

theorem cell_name (m : VideoMemory) {addr : Nat} (h : 0x2000 ≤ addr) (h' : addr < 0x3F00) :
    m.cell addr = .name (nameIndex m.layout addr) := by
  unfold cell
  dsimp only
  rw [Nat.mod_eq_of_lt (by omega), dif_neg (by omega), if_pos h']

theorem cell_palette (m : VideoMemory) {addr : Nat} (h : 0x3F00 ≤ addr) (h' : addr < 0x4000) :
    m.cell addr = .palette (paletteIndex addr) := by
  unfold cell
  dsimp only
  rw [Nat.mod_eq_of_lt h', dif_neg (by omega), if_neg (by omega)]

/-- An address of 14 bits is in the pattern tables, in the nametables or in the palette. -/
theorem region_cases {addr : Nat} (h : addr < 0x4000) :
    addr < 0x2000 ∨ (0x2000 ≤ addr ∧ addr < 0x3F00) ∨ (0x3F00 ≤ addr ∧ addr < 0x4000) := by
  omega

/-- The decoder gives two addresses the same cell exactly when they share a byte. -/
theorem cell_eq_iff (wired : m.Wired) (a b : Nat) :
    m.cell a = m.cell b ↔ SameCell m.mirroring a b := by
  rw [← cell_mod m a, ← cell_mod m b]
  unfold SameCell SameCell14
  have ha : a % 0x4000 < 0x4000 := Nat.mod_lt _ (by decide)
  have hb : b % 0x4000 < 0x4000 := Nat.mod_lt _ (by decide)
  generalize a % 0x4000 = a at ha ⊢
  generalize b % 0x4000 = b at hb ⊢
  -- addresses of two regions have cells of two kinds, and the bounds of `SameCell14` part them
  rcases region_cases ha with ha | ha | ha <;> rcases region_cases hb with hb | hb | hb
  · rw [cell_pattern m ha, cell_pattern m hb, VideoCell.pattern.injEq, Fin.mk.injEq]
    omega
  · rw [cell_pattern m ha, cell_name m hb.1 hb.2]
    exact iff_of_false nofun (by omega)
  · rw [cell_pattern m ha, cell_palette m hb.1 hb.2]
    exact iff_of_false nofun (by omega)
  · rw [cell_name m ha.1 ha.2, cell_pattern m hb]
    exact iff_of_false nofun (by omega)
  · rw [cell_name m ha.1 ha.2, cell_name m hb.1 hb.2, VideoCell.name.injEq, nameIndex_eq_iff wired]
    constructor
    · intro same
      exact .inr (.inl ⟨ha, hb, same⟩)
    · rintro (pattern | ⟨-, -, same⟩ | palette)
      · omega
      · exact same
      · omega
  · rw [cell_name m ha.1 ha.2, cell_palette m hb.1 hb.2]
    exact iff_of_false nofun (by omega)
  · rw [cell_palette m ha.1 ha.2, cell_pattern m hb]
    exact iff_of_false nofun (by omega)
  · rw [cell_palette m ha.1 ha.2, cell_name m hb.1 hb.2]
    exact iff_of_false nofun (by omega)
  · rw [cell_palette m ha.1 ha.2, cell_palette m hb.1 hb.2, VideoCell.palette.injEq,
      paletteIndex_eq_iff]
    omega

/-! ## Reads after writes -/

/-- The byte in a cell. -/
def byteAt (m : VideoMemory) : VideoCell → UInt8
  | .pattern i => m.patterns.get i
  | .name i => m.names.get i
  | .palette i => m.palette.get i

/-- What a cell keeps of a byte: the palette holds six bits. -/
def kept : VideoCell → UInt8 → UInt8
  | .pattern _, value => value
  | .name _, value => value
  | .palette _, value => value &&& 0x3F

/-- A read looks at the cell of its address. -/
theorem read_eq (m : VideoMemory) (addr : Nat) : m.read addr = m.byteAt (m.cell addr) := by
  unfold read byteAt
  cases m.cell addr <;> rfl

/-- What is wired the same way has the same table of aliases for the same mirroring. -/
def SameWiring (m m' : VideoMemory) : Prop := m'.layout = m.layout ∧ m'.mirroring = m.mirroring

theorem sameWiring_write (m : VideoMemory) (addr : Nat) (value : UInt8) :
    m.SameWiring (m.write addr value) := by
  unfold write
  cases m.cell addr <;> exact ⟨rfl, rfl⟩

theorem cell_write (m : VideoMemory) (a : Nat) (value : UInt8) (b : Nat) :
    (m.write a value).cell b = m.cell b := by
  unfold cell
  rw [(sameWiring_write m a value).1]

theorem get_set {n : Nat} (cells : Vector UInt8 n) (i j : Fin n) (value : UInt8) :
    (cells.set i value).get j = if i = j then value else cells.get j := by
  simp only [Fin.ext_iff]
  exact Vector.getElem_set i.isLt j.isLt

/-- A write changes the byte in its cell and no other. -/
theorem byteAt_write (m : VideoMemory) (addr : Nat) (value : UInt8) (cell : VideoCell) :
    (m.write addr value).byteAt cell =
      if m.cell addr = cell then kept cell value else m.byteAt cell := by
  unfold write
  cases m.cell addr with
  | pattern i =>
    cases cell with
    | pattern j => simp only [byteAt, kept, get_set, VideoCell.pattern.injEq]
    | name | palette => rfl
  | name i =>
    cases cell with
    | name j => simp only [byteAt, kept, get_set, VideoCell.name.injEq]
    | pattern | palette => rfl
  | palette i =>
    cases cell with
    | palette j => simp only [byteAt, kept, get_set, VideoCell.palette.injEq]
    | pattern | name => rfl

/-- Six bits are what is left over by 64. -/
theorem and_sixBits (value : UInt8) : value &&& 0x3F = value % 64 := by
  apply UInt8.toNat_inj.mp
  rw [UInt8.toNat_and, UInt8.toNat_mod]
  exact Nat.and_two_pow_sub_one_eq_mod value.toNat 6

theorem kept_cell (m : VideoMemory) (addr : Nat) (value : UInt8) :
    kept (m.cell addr) value = if 0x3F00 ≤ addr % 0x4000 then value % 64 else value := by
  have haddr : addr % 0x4000 < 0x4000 := Nat.mod_lt _ (by decide)
  rw [← cell_mod]
  rcases region_cases haddr with pattern | name | palette
  · rw [cell_pattern m pattern, if_neg (by omega)]
    rfl
  · rw [cell_name m name.1 name.2, if_neg (by omega)]
    rfl
  · rw [cell_palette m palette.1 palette.2, if_pos palette.1]
    exact and_sixBits value

/-- A read after a write sees the new byte at the addresses that share it, and the old byte
    elsewhere. -/
theorem read_write (wired : m.Wired) (a b : Nat) (value : UInt8) :
    (m.write a value).read b =
      if SameCell m.mirroring a b then if 0x3F00 ≤ a % 0x4000 then value % 64 else value
      else m.read b := by
  rw [read_eq, cell_write, byteAt_write, ← read_eq, ← kept_cell m]
  by_cases same : SameCell m.mirroring a b
  · have hcell := (cell_eq_iff wired a b).mpr same
    rw [if_pos same, if_pos hcell, hcell]
  · have hcell : m.cell a ≠ m.cell b := fun hcell => same ((cell_eq_iff wired a b).mp hcell)
    rw [if_neg same, if_neg hcell]

/-! ## The table of aliases -/

theorem wired_new : ({} : VideoMemory).Wired := rfl

theorem wired_setMirroring (m : VideoMemory) (mirroring : Mirroring) :
    (m.setMirroring mirroring).Wired := rfl

theorem Wired.congr {m' : VideoMemory} (wired : m.Wired) (same : m.SameWiring m') : m'.Wired := by
  unfold Wired
  rw [same.1, same.2]
  exact wired

theorem sameWiring_writeRun (m : VideoMemory) (addr : Nat) (data : Bytes) (offset count : Nat) :
    m.SameWiring (m.writeRun addr data offset count) := by
  unfold writeRun
  split
  · exact ⟨rfl, rfl⟩
  · exact ⟨rfl, rfl⟩
  · exact sameWiring_write m addr _

theorem sameWiring_writeRuns (m : VideoMemory) (addr : Nat) (data : Bytes) (offset : Nat) :
    m.SameWiring (m.writeRuns addr data offset) := by
  fun_induction writeRuns m addr data offset with
  | case1 m addr offset more count _ ih =>
    have hrun := sameWiring_writeRun m addr data offset count
    exact ⟨ih.1.trans hrun.1, ih.2.trans hrun.2⟩
  | case2 => exact ⟨rfl, rfl⟩

end VideoMemory

namespace Ppu

theorem memory_readRegister (ppu : Ppu) (register : PpuRegister) :
    (ppu.readRegister register).2.memory = ppu.memory := by
  cases register with
  | data =>
    unfold readRegister readData
    dsimp only
    split
    · rfl
    · rfl
  | control | mask | status | oamAddress | oamData | scroll | address => rfl

theorem sameWiring_writeRegister (ppu : Ppu) (register : PpuRegister) (value : UInt8) :
    ppu.memory.SameWiring (ppu.writeRegister register value).memory := by
  cases register with
  | data =>
    unfold writeRegister writeData
    dsimp only
    split
    · exact VideoMemory.sameWiring_write ppu.memory _ value
    · exact ⟨rfl, rfl⟩
  | control | mask | status | oamAddress | oamData | scroll | address => exact ⟨rfl, rfl⟩

theorem memory_oamWriteFrom (ppu : Ppu) (start : UInt8) (data : List UInt8) :
    (ppu.oamWriteFrom start data).memory = ppu.memory := by
  induction data generalizing ppu start with
  | nil => rfl
  | cons value data ih => exact ih (ppu.oamWrite start value) (start + 1)

theorem memory_preRender (ppu : Ppu) (line : Nat) : (ppu.preRender line).memory = ppu.memory := by
  unfold preRender
  split
  · split <;> rfl
  · split
    · split <;> rfl
    · split
      · rfl
      · split <;> rfl

theorem memory_renderScanline (ppu : Ppu) (line : Nat) (picture : Option Picture) :
    (ppu.renderScanline line picture).2.memory = ppu.memory := by
  unfold renderScanline drawLine
  split
  · rfl
  · dsimp only
    split
    · split <;> rfl
    · rfl

theorem wired_step {a b : Ppu} (step : Step a b) (wired : a.memory.Wired) : b.memory.Wired := by
  cases step with
  | readRegister register => rwa [memory_readRegister]
  | writeRegister register value => exact wired.congr (sameWiring_writeRegister a register value)
  | oamWriteBlock start data =>
    unfold oamWriteBlock
    rwa [memory_oamWriteFrom]
  | preRender line => rwa [memory_preRender]
  | renderScanline line picture => rwa [memory_renderScanline]
  | takeNmi | reset => exact wired

theorem wired_operation {a b : Ppu} (operation : Operation a b) (wired : a.memory.Wired) :
    b.memory.Wired := by
  cases operation with
  | step step => exact wired_step step wired
  | power => exact VideoMemory.wired_new
  | writeByte addr value => exact wired.congr (VideoMemory.sameWiring_write a.memory addr value)
  | writeBlock addr data =>
    exact wired.congr (VideoMemory.sameWiring_writeRuns a.memory addr data 0)
  | setMirroring mirroring => exact VideoMemory.wired_setMirroring a.memory mirroring
  | setMirroringCode code =>
    unfold setMirroringCode
    split
    · exact VideoMemory.wired_setMirroring a.memory _
    · exact wired
  | oamWrite | setChrWritable => exact wired

theorem wired_of_reachable {ppu : Ppu} (reachable : ppu.Reachable) : ppu.memory.Wired :=
  reachable.keeps VideoMemory.wired_new wired_operation

/-! ## Switching the nametables -/

/-- The nametables are switched, by name or by number. -/
inductive Switch : Ppu → Ppu → Prop
  | name (ppu : Ppu) (mirroring : Mirroring) : Switch ppu (ppu.setMirroring mirroring)
  | number (ppu : Ppu) (code : UInt8) : Switch ppu (ppu.setMirroringCode code)

/-- The nametables are switched any number of times. -/
def Switched : Ppu → Ppu → Prop := Relation.ReflTransGen Switch

variable {ppu later : Ppu}

/-- Switching the nametables leaves the PPU as it is but for the mirroring and its aliases. -/
theorem switched_eq (wired : ppu.memory.Wired) (switched : Switched ppu later) :
    later = ppu.setMirroring later.mirroring := by
  induction switched with
  | refl =>
    have hlayout : ppu.memory.layout = ppu.memory.mirroring.layout := wired
    unfold setMirroring mirroring VideoMemory.setMirroring
    rw [← hlayout]
  | tail _ switch ih =>
    cases switch with
    | name mirroring =>
      rw [ih]
      rfl
    | number code =>
      unfold setMirroringCode
      split
      · rw [ih]
        rfl
      · exact ih

/-- Back at the mirroring where it began, the PPU is as it was. -/
theorem eq_of_switched_back (wired : ppu.memory.Wired) (switched : Switched ppu later)
    (back : later.mirroring = ppu.mirroring) : later = ppu := by
  have hrefl := switched_eq wired .refl
  rw [switched_eq wired switched, back, ← hrefl]

/-- A byte is read back at the addresses that share its cell, with six bits in the palette, and
    every other address reads as before. Nametables that are switched back to where they were read
    as before, too. -/
theorem reads_back_at_cell (reachable : ppu.Reachable) :
    (∀ a b value, (ppu.writeByte a value).readByte b =
      if VideoMemory.SameCell ppu.mirroring a b then
        if 0x3F00 ≤ a % 0x4000 then value % 64 else value
      else ppu.readByte b) ∧
    ∀ later, Switched ppu later → later.mirroring = ppu.mirroring →
      ∀ addr, later.readByte addr = ppu.readByte addr := by
  have wired := wired_of_reachable reachable
  constructor
  · intro a b value
    exact VideoMemory.read_write wired a b value
  · intro later switched back addr
    rw [eq_of_switched_back wired switched back]

/-- A new PPU with its nametables switched to left and right. -/
def sideBySide : Ppu := ({} : Ppu).setMirroring .vertical

/-- With left and right tables, a byte of the upper right one shows in the lower right one and its
    repetition, not in the upper left one; a sprite backdrop shows as a background backdrop, cut
    to six bits; and after a switch there and back a byte reads as before. -/
theorem reads_back_at_cell_of_sideBySide :
    sideBySide.Reachable ∧
      (sideBySide.writeByte 0x2405 0xCD).readByte 0x2C05 = 0xCD ∧
      (sideBySide.writeByte 0x2405 0xCD).readByte 0x3C05 = 0xCD ∧
      (sideBySide.writeByte 0x2405 0xCD).readByte 0x2005 = sideBySide.readByte 0x2005 ∧
      (sideBySide.writeByte 0x7F10 0xFF).readByte 0x3F00 = 0x3F ∧
      ((sideBySide.setMirroring .horizontal).setMirroringCode 1).readByte 0x2405 =
        sideBySide.readByte 0x2405 := by
  have reachable : sideBySide.Reachable := Reachable.next .refl (.setMirroring _ _)
  obtain ⟨reads, back⟩ := reads_back_at_cell reachable
  refine ⟨reachable, ?_, ?_, ?_, ?_, ?_⟩
  · rw [reads, if_pos (by decide), if_neg (by decide)]
  · rw [reads, if_pos (by decide), if_neg (by decide)]
  · rw [reads, if_neg (by decide)]
  · rw [reads, if_pos (by decide), if_pos (by decide)]
    rfl
  · have there : Switched sideBySide (sideBySide.setMirroring .horizontal) := .single (.name _ _)
    exact back _ (.tail there (.number _ _)) rfl 0x2405

end Ppu
end Nes
