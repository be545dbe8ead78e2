/-
  The pattern tables while CHR banks are loaded.

  A bank of CHR ROM is copied into the pattern tables as one run of bytes: `loadChr_patterns`
  gives every byte of the tables afterwards. Nothing but a board writes them when they hold CHR
  ROM: `keepsChr_step` says so of every operation of the PPU.
-/
import Nes.Proofs.Console.Steps

namespace Nes

/-! ## Copying a run of bytes -/

/-- The cells that a copy reaches hold what was copied, the others what they held before. -/
theorem getElem?_copyInto {n : Nat} (cells : Vector UInt8 n) (start : Nat) (source : Bytes)
    (offset count : Nat) {i : Nat} (hi : i < n) (h : offset + count ≤ source.size) :
    (copyInto cells start source offset count)[i]? =
      if start ≤ i ∧ i < start + count then source[offset + (i - start)]? else cells[i]? := by
  induction count generalizing cells start offset with
  | zero =>
    unfold copyInto
    rw [if_neg (by omega)]
  | succ count ih =>
    unfold copyInto
    rw [dif_pos (by omega), ih _ _ _ (by omega), Vector.getElem?_setIfInBounds]
    by_cases hstart : start = i
    · subst hstart
      rw [if_neg (by omega), if_pos rfl, if_pos hi, if_pos (by omega), Nat.sub_self, Nat.add_zero,
        Array.getElem?_eq_getElem]
    · rw [if_neg hstart]
      by_cases hin : start ≤ i ∧ i < start + (count + 1)
      · rw [if_pos hin, if_pos (by omega)]
        congr 1
        omega
      · rw [if_neg hin, if_neg (by omega)]

namespace VideoMemory

theorem cell_pattern (m : VideoMemory) {addr : Nat} (h : addr < 0x2000) :
    m.cell addr = .pattern ⟨addr, h⟩ := by
  have haddr : addr % 0x4000 = addr := Nat.mod_eq_of_lt (by omega)
  unfold cell
  dsimp only
  rw [dif_pos (by omega)]
  congr 1
  exact Fin.ext haddr

theorem writeRun_patterns (m : VideoMemory) {addr : Nat} (h : addr < 0x2000) (data : Bytes)
    (offset count : Nat) :
    m.writeRun addr data offset count =
      { m with patterns := copyInto m.patterns addr data offset count } := by
  unfold writeRun
  rw [cell_pattern m h]

theorem writeRuns_end (m : VideoMemory) (addr : Nat) {data : Bytes} {offset : Nat}
    (h : data.size ≤ offset) : m.writeRuns addr data offset = m := by
  unfold writeRuns
  rw [dif_neg (by omega)]

/-- A block that lies in the pattern tables is one run. -/
theorem writeBlock_patterns (m : VideoMemory) {addr : Nat} {data : Bytes}
    (h : addr + data.size ≤ 0x2000) :
    m.writeBlock addr data =
      { m with patterns := copyInto m.patterns addr data 0 data.size } := by
  unfold writeBlock
  by_cases hsize : 0 < data.size
  · have haddr : addr % 0x4000 = addr := Nat.mod_eq_of_lt (by omega)
    have hrun : runLength (addr % 0x4000) (data.size - 0) = data.size := by
      unfold runLength
      rw [haddr, if_pos (by omega)]
      omega
    unfold writeRuns
    rw [dif_pos hsize]
    dsimp only
    rw [hrun, writeRuns_end _ _ (by omega), writeRun_patterns m (by omega)]
  · rw [writeRuns_end m addr (by omega), show data.size = 0 by omega]
    rfl

theorem write_nametable (m : VideoMemory) {addr : Nat} (h : 0x2000 ≤ addr) (h' : addr < 0x4000)
    (value : UInt8) : (m.write addr value).patterns = m.patterns := by
  unfold write cell
  dsimp only
  rw [Nat.mod_eq_of_lt h', dif_neg (by omega)]
  split
  · next hcell =>
    split at hcell
    · cases hcell
    · cases hcell
  · rfl
  · rfl

end VideoMemory

/-! ## Loading a bank -/

namespace Slot

/-- A bank of CHR ROM in the pattern tables. -/
theorem loadChr_patterns (image : Image) {addr : UInt16} {start : Nat} (haddr : addr.toNat = start)
    {size : Nat} (bank : Nat) (slot : Slot) (hend : start + size ≤ 0x2000)
    (hcount : 0 < image.chrBankCount size) {i : Nat} (hi : i < 0x2000) :
    (slot.loadChr image addr size bank).ppu.memory.patterns[i]? =
      if start ≤ i ∧ i < start + size then
        image.chr[bank % image.chrBankCount size * size + (i - start)]?
      else slot.ppu.memory.patterns[i]? := by
  subst haddr
  -- the bank lies inside the ROM
  have hbank : bank % image.chrBankCount size * size + size ≤ image.chr.size := by
    have hlt : bank % image.chrBankCount size < image.chrBankCount size := Nat.mod_lt _ hcount
    calc bank % image.chrBankCount size * size + size
        = (bank % image.chrBankCount size + 1) * size := by rw [Nat.add_mul, Nat.one_mul]
      _ ≤ image.chrBankCount size * size := Nat.mul_le_mul_right size hlt
      _ ≤ image.chr.size := Nat.div_mul_le_self image.chr.size size
  unfold loadChr
  dsimp only
  rw [if_neg (by omega)]
  generalize bank % image.chrBankCount size * size = offset at hbank ⊢
  have hdata : (image.chr.extract offset (offset + size)).size = size := by
    rw [Array.size_extract]
    omega
  unfold Ppu.writeBlock
  rw [VideoMemory.writeBlock_patterns _ (by omega)]
  dsimp only
  rw [getElem?_copyInto _ _ _ _ _ hi (by omega), hdata]
  split
  · rw [Array.getElem?_extract, if_pos (by omega), Nat.zero_add]
  · rfl

end Slot

/-! ## The PPU leaves CHR ROM alone -/

namespace Ppu

/-- What the PPU keeps when its pattern tables are ROM. -/
def KeepsChr (a b : Ppu) : Prop :=
  b.chrWritable = a.chrWritable ∧
    (a.chrWritable = false → b.memory.patterns = a.memory.patterns)

theorem KeepsChr.refl (ppu : Ppu) : KeepsChr ppu ppu := ⟨rfl, fun _ => rfl⟩

theorem keepsChr_writeData (ppu : Ppu) (value : UInt8) : KeepsChr ppu (ppu.writeData value) := by
  unfold writeData
  dsimp only
  split
  · next hwrite =>
    refine ⟨rfl, fun hrom => ?_⟩
    have haddr : 0x2000 ≤ ppu.scroll.v.toNat % 0x4000 := by simpa [hrom] using hwrite
    exact VideoMemory.write_nametable _ haddr (Nat.mod_lt _ (by decide)) value
  · exact ⟨rfl, fun _ => rfl⟩

theorem oamWriteFrom_keepsChr (ppu : Ppu) (start : UInt8) (data : List UInt8) :
    KeepsChr ppu (ppu.oamWriteFrom start data) := by
  induction data generalizing ppu start with
  | nil => exact .refl ppu
  | cons value data ih => exact ih (ppu.oamWrite start value) (start + 1)

theorem keepsChr_readRegister (ppu : Ppu) (register : PpuRegister) :
    KeepsChr ppu (ppu.readRegister register).2 := by
  cases register with
  | data =>
    unfold readRegister readData
    dsimp only
    split
    · exact ⟨rfl, fun _ => rfl⟩
    · exact ⟨rfl, fun _ => rfl⟩
  | control | mask | status | oamAddress | oamData | scroll | address => exact ⟨rfl, fun _ => rfl⟩

theorem keepsChr_writeRegister (ppu : Ppu) (register : PpuRegister) (value : UInt8) :
    KeepsChr ppu (ppu.writeRegister register value) := by
  cases register with
  | data => exact keepsChr_writeData { ppu with latch := value } value
  | control | mask | status | oamAddress | oamData | scroll | address => exact ⟨rfl, fun _ => rfl⟩

theorem keepsChr_preRender (ppu : Ppu) (line : Nat) : KeepsChr ppu (ppu.preRender line) := by
  have hkept (scroll : Scroll) : KeepsChr ppu { ppu with scroll } := ⟨rfl, fun _ => rfl⟩
  unfold preRender
  split
  · split
    · exact hkept _
    · exact .refl ppu
  · split
    · split
      · exact hkept _
      · exact .refl ppu
    · split
      · exact ⟨rfl, fun _ => rfl⟩
      · split
        · exact ⟨rfl, fun _ => rfl⟩
        · exact .refl ppu

theorem keepsChr_renderScanline (ppu : Ppu) (line : Nat) (picture : Option Picture) :
    KeepsChr ppu (ppu.renderScanline line picture).2 := by
  unfold renderScanline
  split
  · exact .refl ppu
  · dsimp only
    split
    · unfold drawLine evaluateSprites
      split
      · exact ⟨rfl, fun _ => rfl⟩
      · exact ⟨rfl, fun _ => rfl⟩
    · exact ⟨rfl, fun _ => rfl⟩

/-- No operation of the PPU changes pattern tables that hold CHR ROM. -/
theorem keepsChr_step {a b : Ppu} (step : Step a b) : KeepsChr a b := by
  cases step with
  | readRegister register => exact keepsChr_readRegister a register
  | writeRegister register value => exact keepsChr_writeRegister a register value
  | oamWriteBlock start data => exact oamWriteFrom_keepsChr a start data.toList
  | takeNmi => exact ⟨rfl, fun _ => rfl⟩
  | preRender line => exact keepsChr_preRender a line
  | renderScanline line picture => exact keepsChr_renderScanline a line picture
  | reset => exact ⟨rfl, fun _ => rfl⟩

end Ppu
end Nes
