/-
  What a built-in board does when it starts over from any slot.

  `installed_init` says which banks are there afterwards, of a slot whose PRG space was filled
  before. Here nothing is asked of the slot. Each board maps the last window of the PRG space last,
  so the addresses that it covers show the selected bank, whatever the map was before
  (`resolve_init`): the vectors are among them. And the CHR banks that it loads lie inside the
  pattern tables, so no other memory of the PPU is written, and with CHR RAM none at all
  (`keeps_init`).
-/
import Nes.Proofs.Board.Installed

namespace Nes

open MemoryMap

/-! ## A window that was just mapped -/

namespace MemoryMap

theorem endBelow_filterMap_below (windows : List Window) (first : Nat) :
    EndBelow (windows.filterMap (·.below first)) first := by
  intro v hv
  obtain ⟨w, _, hcut⟩ := List.mem_filterMap.mp hv
  unfold Window.below at hcut
  split at hcut
  · cases hcut
    dsimp only
    omega
  · cases hcut

/-- The addresses of a new window show its device, in any map. -/
theorem resolve_assign_inside (map : MemoryMap) (device : Device) {first last addr : UInt16}
    (from_first : first ≤ addr) (to_last : addr ≤ last) (base : Nat) :
    (map.assign device first last base).resolve addr =
      (device, base + (addr.toNat - first.toNat)) := by
  rw [UInt16.le_iff_toNat_le] at from_first to_last
  unfold assign
  rw [if_neg (by rw [UInt16.lt_iff_toNat_lt]; omega)]
  unfold resolve
  dsimp only
  rw [lookup_above (endBelow_filterMap_below _ _) from_first, lookup_cons, if_pos to_last]
  rfl

end MemoryMap

namespace Slot

/-- The last window of a layout, just mapped. -/
theorem resolve_mapPrg_last (image : Image) {unit : Nat} (bank : Nat → Nat) {start : UInt16}
    {window : Nat} (begins : start.toNat = 0x8000 + window * unit)
    (ends : start.toNat + unit = 0x10000) (slot : Slot) {addr : UInt16} (inside : start ≤ addr) :
    (slot.mapPrg image start unit (bank window)).map.resolve addr =
      (.prg, image.prgOffset ⟨unit, bank⟩ (addr.toNat - 0x8000)) := by
  have hfirst : start.toNat ≤ addr.toNat := UInt16.le_iff_toNat_le.mp inside
  have haddr := addr.toNat_lt
  have hnext : (window + 1) * unit = window * unit + unit := Nat.succ_mul window unit
  have hwindow : (addr.toNat - 0x8000) / unit = window :=
    Nat.div_eq_of_lt_le (by omega) (by omega)
  have hbyte : (addr.toNat - 0x8000) % unit = addr.toNat - start.toNat := by
    rw [Nat.mod_def, hwindow, Nat.mul_comm]
    omega
  have hlast : (UInt16.ofNat (start.toNat + unit - 1)).toNat = 0xFFFF := by
    rw [ends]
    rfl
  unfold mapPrg
  rw [if_neg (by omega)]
  dsimp only
  rw [resolve_assign_inside _ _ inside (by rw [UInt16.le_iff_toNat_le, hlast]; omega)]
  unfold Image.prgOffset BankLayout.offset
  dsimp only
  rw [hwindow, hbyte]

end Slot

/-! ## The memories of the PPU -/

/-- The nametables and the palette are as they were, and so are the pattern tables if they are
    RAM. -/
structure VideoMemory.Keeps (ram : Bool) (a b : VideoMemory) : Prop where
  names : b.names = a.names
  palette : b.palette = a.palette
  patterns : ram = true → b.patterns = a.patterns

namespace Slot

/-- What a board left of the PPU's memory. -/
def Keeps (image : Image) (a b : Slot) : Prop := a.ppu.memory.Keeps image.hasChrRam b.ppu.memory

namespace Keeps

variable {image : Image} {a b : Slot}

theorem refl (slot : Slot) : Keeps image slot slot := ⟨rfl, rfl, fun _ => rfl⟩

theorem mapPrg (h : Keeps image a b) (start : UInt16) (size bank : Nat) :
    Keeps image a (b.mapPrg image start size bank) := by
  unfold Keeps
  rw [mapPrg_ppu]
  exact h

theorem setMirroring (h : Keeps image a b) (mirroring : Mirroring) :
    Keeps image a (b.setMirroring mirroring) := ⟨h.names, h.palette, h.patterns⟩

/-- A CHR bank inside the pattern tables. An image without CHR ROM has none. -/
theorem loadChr (h : Keeps image a b) {addr : UInt16} {size : Nat}
    (fits : addr.toNat + size ≤ 0x2000) (bank : Nat) :
    Keeps image a (b.loadChr image addr size bank) := by
  unfold Slot.loadChr
  dsimp only
  split
  · exact h
  · next some =>
    have hdata (offset : Nat) : (image.chr.extract offset (offset + size)).size ≤ size := by
      rw [Array.size_extract]
      omega
    unfold Keeps Ppu.writeBlock
    dsimp only
    rw [VideoMemory.writeBlock_patterns _ (Nat.le_trans (Nat.add_le_add_left (hdata _) _) fits)]
    refine ⟨h.names, h.palette, fun ram => absurd ?_ some⟩
    have hempty : image.chr.size = 0 := Array.isEmpty_iff_size_eq_zero.mp ram
    unfold Image.chrBankCount
    rw [hempty, Nat.zero_div]

end Keeps
end Slot

variable {image : Image} {slot start : Slot}

theorem Mmc1.keeps_applyPrg (board : Mmc1) (h : Slot.Keeps image start slot) :
    Slot.Keeps image start (board.applyPrg image slot) := by
  rw [applyPrg_eq]
  exact (h.mapPrg _ _ _).mapPrg _ _ _

theorem Mmc1.keeps_applyChr (board : Mmc1) (h : Slot.Keeps image start slot) :
    Slot.Keeps image start (board.applyChr image slot) := by
  unfold applyChr
  split
  · exact (h.loadChr (by decide) _).loadChr (by decide) _
  · exact h.loadChr (by decide) _

theorem Mmc3.keeps_applyPrg (board : Mmc3) (h : Slot.Keeps image start slot) :
    Slot.Keeps image start (board.applyPrg image slot) := by
  unfold applyPrg
  dsimp only
  exact ((h.mapPrg _ _ _).mapPrg _ _ _).mapPrg _ _ _ |>.mapPrg _ _ _

theorem Mmc3.keeps_applyChr (board : Mmc3) (h : Slot.Keeps image start slot) :
    Slot.Keeps image start (board.applyChr image slot) := by
  unfold applyChr
  -- the large banks are in one half or in the other
  cases bit board.select 7 with
  | false =>
    exact (((h.loadChr (by decide) _).loadChr (by decide) _).loadChr (by decide) _).loadChr
      (by decide) _ |>.loadChr (by decide) _ |>.loadChr (by decide) _
  | true =>
    exact (((h.loadChr (by decide) _).loadChr (by decide) _).loadChr (by decide) _).loadChr
      (by decide) _ |>.loadChr (by decide) _ |>.loadChr (by decide) _

/-! ## All boards -/

/-- Two halves of the PRG space, the upper one mapped last. -/
theorem Slot.resolve_mapPrg_halves (image : Image) (bank : Nat → Nat) (slot : Slot) {addr : UInt16}
    (upper : 0xC000 ≤ addr) :
    (slot.mapPrg image 0x8000 0x4000 (bank 0)
      |>.mapPrg image 0xC000 0x4000 (bank 1)).map.resolve addr =
      (.prg, image.prgOffset ⟨0x4000, bank⟩ (addr.toNat - 0x8000)) :=
  resolve_mapPrg_last image bank (by decide) (by decide) _ upper

theorem Axrom.resolve_apply (board : Axrom) (slot : Slot) {addr : UInt16}
    (upper : 0xC000 ≤ addr) :
    (board.apply image slot).map.resolve addr =
      (.prg, image.prgOffset ((Board.axrom board).prgLayout image) (addr.toNat - 0x8000)) := by
  unfold apply
  dsimp only
  rw [Slot.setMirroring_map]
  exact slot.resolve_mapPrg_halves image (fun w => board.select.toNat % 8 * 2 + w) upper

theorem Mmc1.resolve_applyPrg (board : Mmc1) (slot : Slot) {addr : UInt16}
    (upper : 0xC000 ≤ addr) :
    (board.applyPrg image slot).map.resolve addr =
      (.prg, image.prgOffset ((Board.mmc1 board).prgLayout image) (addr.toNat - 0x8000)) := by
  rw [applyPrg_eq]
  exact slot.resolve_mapPrg_halves image (board.prgWindow (image.prgBankCount 0x4000 - 1)) upper

theorem Mmc1.resolve_applyAll (board : Mmc1) (slot : Slot) {addr : UInt16}
    (upper : 0xC000 ≤ addr) :
    (board.applyAll image slot).map.resolve addr =
      (.prg, image.prgOffset ((Board.mmc1 board).prgLayout image) (addr.toNat - 0x8000)) := by
  unfold applyAll
  rw [applyChr_map]
  exact board.resolve_applyPrg _ upper

/-- Four quarters, of which the last is mapped last. -/
theorem Mmc3.resolve_applyBanks (board : Mmc3) (slot : Slot) {addr : UInt16}
    (last : 0xE000 ≤ addr) :
    (board.applyBanks image slot).map.resolve addr =
      (.prg, image.prgOffset ((Board.mmc3 board).prgLayout image) (addr.toNat - 0x8000)) := by
  unfold applyBanks
  rw [applyChr_map]
  unfold applyPrg
  dsimp only
  exact Slot.resolve_mapPrg_last image (board.prgWindow (image.prgBankCount 0x2000))
    (by decide : (0xE000 : UInt16).toNat = 0x8000 + 3 * 0x2000) (by decide) _ last

namespace Board

/-- The end of the PRG space shows the bank that the board selects there. -/
theorem resolve_init {board : Board} (hbuiltin : board.isBuiltin = true) (image : Image)
    (kind : ResetKind) (slot : Slot) {addr : UInt16} (last : 0xE000 ≤ addr) :
    (board.init image kind slot).2.map.resolve addr =
      (.prg, image.prgOffset ((board.init image kind slot).1.prgLayout image)
        (addr.toNat - 0x8000)) := by
  have hupper : 0xC000 ≤ addr := UInt16.le_trans (by decide) last
  have hfresh {board : Board} (bank : Nat → Nat) (chr : Nat)
      (hlayout : board.prgLayout image = ⟨0x4000, bank⟩) :
      (slot.mapPrg image 0x8000 0x4000 (bank 0)
        |>.mapPrg image 0xC000 0x4000 (bank 1)
        |>.loadChr image 0x0000 0x2000 chr
        |>.setMirroring image.header.mirroring).map.resolve addr =
        (.prg, image.prgOffset (board.prgLayout image) (addr.toNat - 0x8000)) := by
    rw [hlayout, Slot.setMirroring_map, Slot.loadChr_map]
    exact slot.resolve_mapPrg_halves image bank hupper
  cases board with
  | nrom => exact hfresh (fun w => if w = 0 then 0 else image.prgBankCount 0x4000 - 1) 0 rfl
  | uxrom => exact hfresh (fun w => if w = 0 then _ else image.prgBankCount 0x4000 - 1) 0 rfl
  | cnrom => exact hfresh (fun w => if w = 0 then 0 else image.prgBankCount 0x4000 - 1) _ rfl
  | axrom => exact Axrom.resolve_apply _ _ hupper
  | mmc1 => exact Mmc1.resolve_applyAll _ slot hupper
  | mmc3 => exact Mmc3.resolve_applyBanks _ (slot.setMirroring image.header.mirroring) last
  | scripted => cases hbuiltin

theorem keeps_init {board : Board} (hbuiltin : board.isBuiltin = true) (image : Image)
    (kind : ResetKind) (slot : Slot) : Slot.Keeps image slot (board.init image kind slot).2 := by
  have h := @Slot.Keeps.refl image slot
  cases board with
  | nrom | uxrom | cnrom =>
    exact (((h.mapPrg _ _ _).mapPrg _ _ _).loadChr (by decide) _).setMirroring _
  | axrom => exact (((h.loadChr (by decide) _).mapPrg _ _ _).mapPrg _ _ _).setMirroring _
  | mmc1 => exact Mmc1.keeps_applyChr _ (Mmc1.keeps_applyPrg _ (h.setMirroring _))
  | mmc3 => exact Mmc3.keeps_applyChr _ (Mmc3.keeps_applyPrg _ (h.setMirroring _))
  | scripted => cases hbuiltin

end Board
end Nes
