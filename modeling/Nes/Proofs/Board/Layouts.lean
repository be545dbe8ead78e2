/-
  What a board's registers select, as a layout of banks.

  A `BankLayout` says which bank is in each of the windows that divide an address range evenly.
  `Board.prgLayout` and `Board.chrLayout` read it off a board's registers, window by window. A
  bank number wraps at the number of banks in the ROM.

  Mapping the PRG banks of a layout one after the other leaves just its windows in the map
  (`mapPrg_halves`, `mapPrg_quarters`), and loading CHR banks of any size that fill the pattern
  tables leaves just their bytes there (`shows_whole`, `shows_halves`, `shows_mmc3`).
-/
import Nes.Board.Basic
import Nes.Proofs.Board.Patterns
import Nes.Proofs.Board.Windows
import Nes.Proofs.Image

namespace Nes

open MemoryMap

/-! ## Layouts -/

/-- Windows of `unit` bytes each, and the number of the bank in each of them. -/
structure BankLayout where
  unit : Nat
  bank : Nat → Nat

namespace BankLayout

/-- Where byte `x` of the windows is in a ROM of `count` banks. -/
def offset (layout : BankLayout) (count x : Nat) : Nat :=
  layout.bank (x / layout.unit) % count * layout.unit + x % layout.unit

/-- The windows from number `w` on, in the PRG space. -/
def windowsFrom (layout : BankLayout) (count w : Nat) : (left : Nat) → List Window
  | 0 => []
  | left + 1 =>
    ⟨0x8000 + w * layout.unit, 0x8000 + w * layout.unit + layout.unit - 1, .prg,
      layout.bank w % count * layout.unit⟩ :: windowsFrom layout count (w + 1) left

/-- All windows of the PRG space. -/
def windows (layout : BankLayout) (count : Nat) : List Window :=
  layout.windowsFrom count 0 (0x8000 / layout.unit)

theorem windows_halves (bank : Nat → Nat) (count : Nat) :
    windows ⟨0x4000, bank⟩ count =
      [⟨0x8000, 0xBFFF, .prg, bank 0 % count * 0x4000⟩,
        ⟨0xC000, 0xFFFF, .prg, bank 1 % count * 0x4000⟩] := by
  simp [windows, windowsFrom]

theorem windows_quarters (bank : Nat → Nat) (count : Nat) :
    windows ⟨0x2000, bank⟩ count =
      [⟨0x8000, 0x9FFF, .prg, bank 0 % count * 0x2000⟩,
        ⟨0xA000, 0xBFFF, .prg, bank 1 % count * 0x2000⟩,
        ⟨0xC000, 0xDFFF, .prg, bank 2 % count * 0x2000⟩,
        ⟨0xE000, 0xFFFF, .prg, bank 3 % count * 0x2000⟩] := by
  simp [windows, windowsFrom]

theorem lookup_windowsFrom {layout : BankLayout} (hunit : 0 < layout.unit) (count : Nat)
    {w left x : Nat} (hfirst : w * layout.unit ≤ x) (hlast : x < (w + left) * layout.unit) :
    lookup (0x8000 + x) (layout.windowsFrom count w left) =
      (.prg, layout.offset count x) := by
  induction left generalizing w with
  | zero =>
    rw [Nat.add_zero] at hlast
    omega
  | succ left ih =>
    have hnext : w + (left + 1) = w + 1 + left := by omega
    rw [hnext] at hlast
    unfold windowsFrom
    rw [lookup_cons]
    dsimp only
    by_cases hin : x < w * layout.unit + layout.unit
    · have hdiv : x / layout.unit = w :=
        Nat.div_eq_of_lt_le hfirst (by rw [Nat.add_mul, Nat.one_mul]; exact hin)
      have hmod : x % layout.unit = x - w * layout.unit := by
        rw [Nat.mod_def, hdiv, Nat.mul_comm]
      rw [if_pos (by omega)]
      unfold offset Window.offset
      dsimp only
      rw [hdiv, hmod]
      congr 2
      omega
    · rw [if_neg (by omega)]
      refine ih ?_ hlast
      rw [Nat.add_mul, Nat.one_mul]
      omega

theorem startFrom_windowsFrom {layout : BankLayout} (hunit : 0 < layout.unit) (count : Nat)
    {w left : Nat} (hlast : (w + left) * layout.unit ≤ 0x8000) :
    StartFrom (layout.windowsFrom count w left) 0x8000 := by
  induction left generalizing w with
  | zero =>
    intro v hv
    cases hv
  | succ left ih =>
    have hnext : w + (left + 1) = w + 1 + left := by omega
    rw [hnext] at hlast
    have hin : w * layout.unit + layout.unit ≤ 0x8000 := by
      calc w * layout.unit + layout.unit
          = (w + 1) * layout.unit := by rw [Nat.add_mul, Nat.one_mul]
        _ ≤ (w + 1 + left) * layout.unit := Nat.mul_le_mul_right _ (by omega)
        _ ≤ 0x8000 := hlast
    intro v hv
    unfold windowsFrom at hv
    cases hv with
    | head =>
      dsimp only
      omega
    | tail _ hv => exact ih hlast v hv

theorem startFrom_windows {layout : BankLayout} (hunit : 0 < layout.unit) (count : Nat) :
    StartFrom (layout.windows count) 0x8000 := by
  refine startFrom_windowsFrom hunit count ?_
  rw [Nat.zero_add]
  exact Nat.div_mul_le_self 0x8000 layout.unit

end BankLayout

/-- Where an address of the PRG space is in PRG ROM, `x` counting from $8000. -/
def Image.prgOffset (image : Image) (layout : BankLayout) (x : Nat) : Nat :=
  layout.offset (image.prgBankCount layout.unit) x

/-- Where address `x` of the pattern tables is in CHR ROM. -/
def Image.chrOffset (image : Image) (layout : BankLayout) (x : Nat) : Nat :=
  layout.offset (image.chrBankCount layout.unit) x

/-! ## What the registers select -/

/-- The PRG bank of 16 KiB in window `w`: in mode 3 the second window has the last bank, in mode
    2 the first has bank 0, and in the other modes the two are a bank of 32 KiB. -/
def Mmc1.prgWindow (board : Mmc1) (last w : Nat) : Nat :=
  match board.control.toNat / 4 % 4, w with
  | 3, 0 => board.prgBank.toNat % 16
  | 3, _ => last
  | 2, 0 => 0
  | 2, _ => board.prgBank.toNat % 16
  | _, w => board.prgBank.toNat % 16 / 2 * 2 + w

/-- The PRG bank of 8 KiB in window `w`: the last one has the last bank, the second bank register
    7, and of the other two one has bank register 6 and one the last bank but one. -/
def Mmc3.prgWindow (board : Mmc3) (count : Nat) : (w : Nat) → Nat
  | 0 => if bit board.select 6 then count - 2 else board.bank 6 % 64
  | 1 => board.bank 7 % 64
  | 2 => if bit board.select 6 then board.bank 6 % 64 else count - 2
  | _ => count - 1

/-- The CHR bank of 1 KiB in window `w`, unless the halves are swapped: two pairs from the bank
    registers 0 and 1, whose low bits do not count, and then one bank from each of the next
    four. -/
def Mmc3.chrWindow (board : Mmc3) : (w : Nat) → Nat
  | 0 => board.bank 0 / 2 * 2
  | 1 => board.bank 0 / 2 * 2 + 1
  | 2 => board.bank 1 / 2 * 2
  | 3 => board.bank 1 / 2 * 2 + 1
  | w => board.bank (w - 2)

theorem Mmc3.chrWindow_pair₀ (board : Mmc3) {x : Nat} (h : x < 2) :
    board.chrWindow x = board.bank 0 / 2 * 2 + x := by
  obtain rfl | rfl : x = 0 ∨ x = 1 := by omega
  · rfl
  · rfl

theorem Mmc3.chrWindow_pair₁ (board : Mmc3) {x : Nat} (h : x < 2) :
    board.chrWindow (x + 2) = board.bank 1 / 2 * 2 + x := by
  obtain rfl | rfl : x = 0 ∨ x = 1 := by omega
  · rfl
  · rfl

theorem Mmc3.chrWindow_single (board : Mmc3) (x : Nat) :
    board.chrWindow (x + 4) = board.bank (x + 2) := rfl

namespace Board

/-- The PRG banks that the registers select. -/
def prgLayout (board : Board) (image : Image) : BankLayout :=
  let last := image.prgBankCount 0x4000 - 1
  match board with
  | nrom | cnrom _ => ⟨0x4000, fun w => if w = 0 then 0 else last⟩
  | uxrom state => ⟨0x4000, fun w => if w = 0 then state.bank.toNat else last⟩
  | axrom state => ⟨0x4000, fun w => state.select.toNat % 8 * 2 + w⟩
  | mmc1 state => ⟨0x4000, state.prgWindow last⟩
  | mmc3 state => ⟨0x2000, state.prgWindow (image.prgBankCount 0x2000)⟩
  -- what a scripted board maps is up to its script
  | scripted _ => ⟨0x4000, fun _ => 0⟩

/-- The CHR banks that the registers select. -/
def chrLayout : Board → BankLayout
  | nrom | uxrom _ | axrom _ => ⟨0x2000, fun _ => 0⟩
  | cnrom state => ⟨0x2000, fun _ => state.bank.toNat⟩
  | mmc1 state =>
    if bit state.control 4 then
      ⟨0x1000, fun w => if w = 0 then state.chrBank0.toNat else state.chrBank1.toNat⟩
    else ⟨0x2000, fun _ => state.chrBank0.toNat / 2⟩
  | mmc3 state =>
    ⟨0x400, fun w => state.chrWindow (if bit state.select 7 then (w + 4) % 8 else w)⟩
  | scripted _ => ⟨0x2000, fun _ => 0⟩

end Board

/-- The pattern tables hold the banks of a layout, byte for byte. -/
def Shows (image : Image) (layout : BankLayout) (patterns : Vector UInt8 0x2000) : Prop :=
  ∀ i, i < 0x2000 → patterns[i]? = image.chr[image.chrOffset layout i]?

/-! ## Mapping PRG banks -/

namespace Slot

@[simp] theorem mapPrg_ppu (image : Image) (start : UInt16) (size bank : Nat) (slot : Slot) :
    (slot.mapPrg image start size bank).ppu = slot.ppu := by
  unfold mapPrg
  dsimp only
  split <;> rfl

@[simp] theorem loadChr_map (image : Image) (addr : UInt16) (size bank : Nat) (slot : Slot) :
    (slot.loadChr image addr size bank).map = slot.map := by
  unfold loadChr
  dsimp only
  split <;> rfl

@[simp] theorem setMirroring_map (mirroring : Mirroring) (slot : Slot) :
    (slot.setMirroring mirroring).map = slot.map := rfl

@[simp] theorem setMirroring_patterns (mirroring : Mirroring) (slot : Slot) :
    (slot.setMirroring mirroring).ppu.memory.patterns = slot.ppu.memory.patterns := rfl

/-- Two banks of 16 KiB. -/
theorem mapPrg_halves {slot : Slot} (h : Filled slot.map consoleWindows 0x8000) (image : Image)
    (bank : Nat → Nat) :
    (slot.mapPrg image 0x8000 0x4000 (bank 0)
      |>.mapPrg image 0xC000 0x4000 (bank 1)).map.windows =
      consoleWindows ++ BankLayout.windows ⟨0x4000, bank⟩ (image.prgBankCount 0x4000) := by
  have h₀ := filled_mapPrg image 0x8000 0x4000 (bank 0) h (by decide) (by decide)
  have h₁ := filled_mapPrg image 0xC000 0x4000 (bank 1) h₀ (by decide) (by decide)
  rw [filled_end h₁, BankLayout.windows_halves, List.append_assoc]
  rfl

/-- Four banks of 8 KiB. -/
theorem mapPrg_quarters {slot : Slot} (h : Filled slot.map consoleWindows 0x8000)
    (image : Image) (bank : Nat → Nat) :
    (slot.mapPrg image 0x8000 0x2000 (bank 0)
      |>.mapPrg image 0xA000 0x2000 (bank 1)
      |>.mapPrg image 0xC000 0x2000 (bank 2)
      |>.mapPrg image 0xE000 0x2000 (bank 3)).map.windows =
      consoleWindows ++ BankLayout.windows ⟨0x2000, bank⟩ (image.prgBankCount 0x2000) := by
  have h₀ := filled_mapPrg image 0x8000 0x2000 (bank 0) h (by decide) (by decide)
  have h₁ := filled_mapPrg image 0xA000 0x2000 (bank 1) h₀ (by decide) (by decide)
  have h₂ := filled_mapPrg image 0xC000 0x2000 (bank 2) h₁ (by decide) (by decide)
  have h₃ := filled_mapPrg image 0xE000 0x2000 (bank 3) h₂ (by decide) (by decide)
  rw [filled_end h₃, BankLayout.windows_quarters, List.append_assoc, List.append_assoc,
    List.append_assoc]
  rfl

/-- The lower one of two banks of 16 KiB, while the other stays. -/
theorem mapPrg_lowerHalf {slot : Slot} {image : Image} {bank : Nat → Nat} (bank' : Nat → Nat)
    (h : slot.map.windows = consoleWindows ++
      BankLayout.windows ⟨0x4000, bank⟩ (image.prgBankCount 0x4000))
    (hkeep : bank' 1 = bank 1) :
    (slot.mapPrg image 0x8000 0x4000 (bank' 0)).map.windows =
      consoleWindows ++ BankLayout.windows ⟨0x4000, bank'⟩ (image.prgBankCount 0x4000) := by
  have hlower : EndBelow consoleWindows (0x8000 : UInt16).toNat := endBelow_console
  have hupper : StartFrom (BankLayout.windows ⟨0x4000, bank⟩ (image.prgBankCount 0x4000))
      (0x8000 : UInt16).toNat := BankLayout.startFrom_windows (Nat.succ_pos _) _
  have hle : (0x8000 : UInt16) ≤ 0xBFFF := by decide
  have hassign := assign_between .prg hle (bank' 0 % image.prgBankCount 0x4000 * 0x4000)
    hlower hupper
  obtain ⟨⟨windows⟩, ppu, irq, journal⟩ := slot
  dsimp only at h
  rw [← h] at hassign
  have hkept : (BankLayout.windows ⟨0x4000, bank⟩ (image.prgBankCount 0x4000)).filterMap
      (·.above (0xBFFF : UInt16).toNat) =
        [⟨0xC000, 0xFFFF, .prg, bank 1 % image.prgBankCount 0x4000 * 0x4000⟩] := by
    have hlow (base : Nat) : (⟨0x8000, 0xBFFF, .prg, base⟩ : Window).above
        (0xBFFF : UInt16).toNat = none := Window.above_of_le (Nat.le_refl 0xBFFF)
    have hhigh (base : Nat) : (⟨0xC000, 0xFFFF, .prg, base⟩ : Window).above
        (0xBFFF : UInt16).toNat = some ⟨0xC000, 0xFFFF, .prg, base⟩ :=
      Window.above_of_lt (Nat.lt_succ_self 0xBFFF) (Nat.le_add_right 0xC000 0x3FFF)
    simp only [BankLayout.windows_halves, List.filterMap_cons, List.filterMap_nil, hlow, hhigh]
  have hmap : ((⟨⟨windows⟩, ppu, irq, journal⟩ : Slot).mapPrg image 0x8000 0x4000
      (bank' 0)).map = (⟨windows⟩ : MemoryMap).assign .prg 0x8000 0xBFFF
        (bank' 0 % image.prgBankCount 0x4000 * 0x4000) := by
    unfold mapPrg
    rw [if_neg (by decide)]
    rfl
  rw [hmap, hassign, hkept, BankLayout.windows_halves, hkeep]
  rfl

/-! ## Loading CHR banks -/

theorem toNat_add_small {addr : UInt16} {start : Nat} (haddr : addr.toNat = start)
    (hstart : start ≤ 0x1000) {step : UInt16} (hstep : step.toNat ≤ 0x1000) :
    (addr + step).toNat = start + step.toNat := by
  rw [UInt16.toNat_add, haddr]
  omega

section
variable {image : Image} (sized : image.Sized) (rom : image.hasChrRam = false)
include sized rom

/-- One bank of 8 KiB. -/
theorem shows_whole (bank : Nat) (slot : Slot) :
    Shows image ⟨0x2000, fun _ => bank⟩
      (slot.loadChr image 0x0000 0x2000 bank).ppu.memory.patterns := by
  obtain ⟨hbanks, hcount, _⟩ := sized.chrBanks rom
  intro i hi
  have haddr : (0x0000 : UInt16).toNat = 0 := rfl
  rw [loadChr_patterns image haddr bank slot (by decide) (by omega) hi, if_pos (by omega)]
  unfold Image.chrOffset BankLayout.offset
  dsimp only
  rw [Nat.mod_eq_of_lt hi, Nat.sub_zero]

/-- Two banks of 4 KiB. -/
theorem shows_halves (bank₀ bank₁ : Nat) (slot : Slot) :
    Shows image ⟨0x1000, fun w => if w = 0 then bank₀ else bank₁⟩
      (slot.loadChr image 0x0000 0x1000 bank₀
        |>.loadChr image 0x1000 0x1000 bank₁).ppu.memory.patterns := by
  obtain ⟨hbanks, _, hcount, _⟩ := sized.chrBanks rom
  intro i hi
  have hlower : (0x0000 : UInt16).toNat = 0 := rfl
  have hupper : (0x1000 : UInt16).toNat = 0x1000 := rfl
  rw [loadChr_patterns image hupper bank₁ _ (by decide) (by omega) hi,
    loadChr_patterns image hlower bank₀ _ (by decide) (by omega) hi]
  unfold Image.chrOffset BankLayout.offset
  dsimp only
  by_cases hin : 0x1000 ≤ i
  · have hwindow : i / 0x1000 = 1 := by omega
    have hbyte : i % 0x1000 = i - 0x1000 := by omega
    rw [if_pos (by omega), hwindow, hbyte, if_neg (by decide)]
  · have hwindow : i / 0x1000 = 0 := by omega
    have hbyte : i % 0x1000 = i - 0 := by omega
    rw [if_neg (by omega), if_pos (by omega), hwindow, hbyte, if_pos rfl]

/-- A bank of 2 KiB is a pair of banks of 1 KiB. -/
theorem chr_pair (bank x : Nat) (hx : x < 0x800) :
    bank % image.chrBankCount 0x800 * 0x800 + x =
      (bank * 2 + x / 0x400) % image.chrBankCount 0x400 * 0x400 + x % 0x400 := by
  obtain ⟨hbanks, _, _, hpairs, hsingles⟩ := sized.chrBanks rom
  have hdouble : image.chrBankCount 0x400 = image.chrBankCount 0x800 * 2 := by omega
  rw [hdouble]
  generalize hcount : image.chrBankCount 0x800 = count
  have hlt : bank % count < count := Nat.mod_lt _ (by omega)
  have hpair : (bank * 2 + x / 0x400) % (count * 2) = bank % count * 2 + x / 0x400 := by
    have hsplit : bank * 2 + x / 0x400 =
        count * 2 * (bank / count) + (bank % count * 2 + x / 0x400) := by
      have hdiv := Nat.div_add_mod bank count
      rw [Nat.mul_right_comm]
      omega
    have hin : bank % count * 2 + x / 0x400 < count * 2 := by omega
    rw [hsplit, Nat.mul_add_mod, Nat.mod_eq_of_lt hin]
  rw [hpair]
  omega

/-- Four banks of 1 KiB side by side. -/
theorem loadChr_singles (bank : Nat → Nat) (slot : Slot) {addr : UInt16} {start : Nat}
    (haddr : addr.toNat = start) (hstart : start ≤ 0x1000) {i : Nat} (hi : i < 0x2000) :
    (slot.loadChr image addr 0x400 (bank 0)
      |>.loadChr image (addr + 0x400) 0x400 (bank 1)
      |>.loadChr image (addr + 0x800) 0x400 (bank 2)
      |>.loadChr image (addr + 0xC00) 0x400 (bank 3)).ppu.memory.patterns[i]? =
      if start ≤ i ∧ i < start + 0x1000 then
        image.chr[bank ((i - start) / 0x400) % image.chrBankCount 0x400 * 0x400 +
          (i - start) % 0x400]?
      else slot.ppu.memory.patterns[i]? := by
  obtain ⟨hbanks, _, _, _, hcount⟩ := sized.chrBanks rom
  have h₁ : (addr + 0x400).toNat = start + 0x400 := toNat_add_small haddr hstart (by decide)
  have h₂ : (addr + 0x800).toNat = start + 0x800 := toNat_add_small haddr hstart (by decide)
  have h₃ : (addr + 0xC00).toNat = start + 0xC00 := toNat_add_small haddr hstart (by decide)
  rw [loadChr_patterns image h₃ _ _ (by omega) (by omega) hi,
    loadChr_patterns image h₂ _ _ (by omega) (by omega) hi,
    loadChr_patterns image h₁ _ _ (by omega) (by omega) hi,
    loadChr_patterns image haddr _ _ (by omega) (by omega) hi]
  clear hbanks hcount h₁ h₂ h₃
  by_cases hin : start ≤ i ∧ i < start + 0x1000
  · rw [if_pos hin]
    obtain hw | hw | hw | hw : (i - start) / 0x400 = 3 ∨ (i - start) / 0x400 = 2 ∨
        (i - start) / 0x400 = 1 ∨ (i - start) / 0x400 = 0 := by omega
    · have hbyte : (i - start) % 0x400 = i - (start + 0xC00) := by omega
      rw [if_pos (by omega), hw, hbyte]
    · have hbyte : (i - start) % 0x400 = i - (start + 0x800) := by omega
      rw [if_neg (by omega), if_pos (by omega), hw, hbyte]
    · have hbyte : (i - start) % 0x400 = i - (start + 0x400) := by omega
      rw [if_neg (by omega), if_neg (by omega), if_pos (by omega), hw, hbyte]
    · have hbyte : (i - start) % 0x400 = i - start := by omega
      rw [if_neg (by omega), if_neg (by omega), if_neg (by omega), if_pos (by omega), hw, hbyte]
  · rw [if_neg hin, if_neg (by omega), if_neg (by omega), if_neg (by omega), if_neg (by omega)]

/-- Two banks of 2 KiB side by side, as four banks of 1 KiB. -/
theorem loadChr_pairs (bank₀ bank₁ : Nat) (slot : Slot) {addr : UInt16} {start : Nat}
    (haddr : addr.toNat = start) (hstart : start ≤ 0x1000) {i : Nat} (hi : i < 0x2000)
    (hin : start ≤ i ∧ i < start + 0x1000) :
    (slot.loadChr image addr 0x800 bank₀
      |>.loadChr image (addr + 0x800) 0x800 bank₁).ppu.memory.patterns[i]? =
      image.chr[(if i < start + 0x800 then bank₀ * 2 + (i - start) / 0x400
          else bank₁ * 2 + ((i - start) / 0x400 - 2)) % image.chrBankCount 0x400 * 0x400 +
        (i - start) % 0x400]? := by
  obtain ⟨hbanks, _, _, hcount, _⟩ := sized.chrBanks rom
  have h₁ : (addr + 0x800).toNat = start + 0x800 := toNat_add_small haddr hstart (by decide)
  rw [loadChr_patterns image h₁ _ _ (by omega) (by omega) hi,
    loadChr_patterns image haddr _ _ (by omega) (by omega) hi]
  by_cases hlower : i < start + 0x800
  · rw [if_pos hlower, if_neg (by omega), if_pos (by omega), chr_pair sized rom _ _ (by omega)]
  · have hwindow : (i - start) / 0x400 - 2 = (i - (start + 0x800)) / 0x400 := by omega
    have hbyte : (i - start) % 0x400 = (i - (start + 0x800)) % 0x400 := by omega
    rw [if_neg hlower, if_pos (by omega), hwindow, hbyte, chr_pair sized rom _ _ (by omega)]

/-- Two banks of 2 KiB from `large` on and four of 1 KiB from `small` on, byte `i` of window
    `w`. -/
theorem loadChr_sixfold (board : Mmc3) (slot : Slot) {large small : UInt16} {L S : Nat}
    (hlarge : large.toNat = L) (hsmall : small.toNat = S)
    (halves : L = 0 ∧ S = 0x1000 ∨ L = 0x1000 ∧ S = 0) {i w : Nat} (hi : i < 0x2000)
    (hw : L ≤ i ∧ i < L + 0x1000 ∧ w = (i - L) / 0x400 ∨
      S ≤ i ∧ i < S + 0x1000 ∧ w = (i - S) / 0x400 + 4) :
    (slot.loadChr image large 0x800 (board.bank 0 / 2)
      |>.loadChr image (large + 0x800) 0x800 (board.bank 1 / 2)
      |>.loadChr image small 0x400 (board.bank 2)
      |>.loadChr image (small + 0x400) 0x400 (board.bank 3)
      |>.loadChr image (small + 0x800) 0x400 (board.bank 4)
      |>.loadChr image (small + 0xC00) 0x400 (board.bank 5)).ppu.memory.patterns[i]? =
      image.chr[board.chrWindow w % image.chrBankCount 0x400 * 0x400 + i % 0x400]? := by
  refine (loadChr_singles sized rom (fun k => board.bank (k + 2)) _ hsmall (by omega) hi).trans ?_
  obtain ⟨hle, hlt, rfl⟩ | ⟨hle, hlt, rfl⟩ := hw
  · have hbyte : i % 0x400 = (i - L) % 0x400 := by omega
    rw [if_neg (by omega), loadChr_pairs sized rom _ _ slot hlarge (by omega) hi ⟨hle, hlt⟩, hbyte]
    by_cases hlower : i < L + 0x800
    · rw [if_pos hlower, Mmc3.chrWindow_pair₀ board (by omega)]
    · obtain ⟨x, hx⟩ : ∃ x, (i - L) / 0x400 = x + 2 := ⟨(i - L) / 0x400 - 2, by omega⟩
      rw [if_neg hlower, hx, Mmc3.chrWindow_pair₁ board (by omega), Nat.add_sub_cancel]
  · have hbyte : i % 0x400 = (i - S) % 0x400 := by omega
    rw [if_pos ⟨hle, hlt⟩, Mmc3.chrWindow_single, hbyte]

/-- All that an MMC3 selects. -/
theorem shows_mmc3 (board : Mmc3) (slot : Slot) :
    Shows image (Board.mmc3 board).chrLayout (board.applyChr image slot).ppu.memory.patterns := by
  intro i hi
  unfold Mmc3.applyChr Image.chrOffset BankLayout.offset Board.chrLayout
  dsimp only
  cases bit board.select 7 with
  | false =>
    have hw : 0 ≤ i ∧ i < 0 + 0x1000 ∧ i / 0x400 = (i - 0) / 0x400 ∨
        0x1000 ≤ i ∧ i < 0x1000 + 0x1000 ∧ i / 0x400 = (i - 0x1000) / 0x400 + 4 := by omega
    exact loadChr_sixfold sized rom board slot rfl rfl (.inl ⟨rfl, rfl⟩) hi hw
  | true =>
    have hw : 0x1000 ≤ i ∧ i < 0x1000 + 0x1000 ∧
          (i / 0x400 + 4) % 8 = (i - 0x1000) / 0x400 ∨
        0 ≤ i ∧ i < 0 + 0x1000 ∧ (i / 0x400 + 4) % 8 = (i - 0) / 0x400 + 4 := by omega
    exact loadChr_sixfold sized rom board slot rfl rfl (.inr ⟨rfl, rfl⟩) hi hw

end

end Slot
end Nes
