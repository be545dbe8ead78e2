/-
  Images that were read: their ROM sections have the sizes that the header gives.

  `blankRom` is an image of zeros that can be read.
-/
import Nes.Image.Basic

namespace Nes

/-- A reader that comes to a result got through each of its steps. -/
theorem ok_of_bind {A B : Type} {step : Except LoadError A} {next : A → Except LoadError B}
    {result : B} (h : step.bind next = .ok result) :
    ∃ part, step = .ok part ∧ next part = .ok result := by
  cases hstep : step with
  | ok part =>
    rw [hstep] at h
    exact ⟨part, rfl, h⟩
  | error =>
    rw [hstep] at h
    cases h

namespace Image

/-- The ROM sections have the sizes that the header gives. -/
structure Sized (image : Image) : Prop where
  prg : image.prg.size = image.header.prgSize
  chr : image.chr.size = image.header.chrSize

theorem size_cut {bytes rom : Bytes} {start length : Nat} {part : Section}
    (h : cut bytes start length part = .ok rom) : rom.size = length := by
  unfold cut at h
  split at h
  · next hzero =>
    cases h
    exact hzero.symm
  · split at h
    · cases h
      rw [Array.size_extract]
      omega
    · cases h

theorem sized_of_parse {bytes : Bytes} {image : Image} (h : parse bytes = .ok image) :
    image.Sized := by
  obtain ⟨header, _, h⟩ := ok_of_bind h
  obtain ⟨trainer, _, h⟩ := ok_of_bind h
  obtain ⟨prg, hprg, h⟩ := ok_of_bind h
  obtain ⟨chr, hchr, h⟩ := ok_of_bind h
  cases h
  exact ⟨size_cut hprg, size_cut hchr⟩

/-- An image without a trainer is its header and its two ROM sections. -/
theorem parse_of_sections {bytes prg chr : Bytes} {header : Header}
    (hheader : Header.parse bytes = .ok header) (htrainer : header.trainer = false)
    (hprg : cut bytes Header.size header.prgSize .prg = .ok prg)
    (hchr : cut bytes (Header.size + header.prgSize) header.chrSize .chr = .ok chr) :
    parse bytes = .ok { header, prg, chr, trainer := none, key := Digest.sha1 bytes } := by
  have hnone : cut bytes Header.size 0 .trainer = .ok #[] := if_pos rfl
  unfold parse
  rw [hheader]
  simp only [bind, Except.bind, htrainer, Bool.false_eq_true, if_false, Nat.add_zero, hnone, hprg,
    hchr]
  rfl

/-! ## Counting banks -/

theorem prgBankCount_pos (image : Image) (size : Nat) : 0 < image.prgBankCount size := by
  unfold prgBankCount
  omega

/-- An image with PRG ROM has a whole number of banks of each size, and no byte over. -/
theorem Sized.prgBanks {image : Image} (h : image.Sized) (hbanks : 0 < image.header.prgBanks) :
    image.prgBankCount 0x4000 * 0x4000 = image.prg.size ∧
      image.prgBankCount 0x2000 * 0x2000 = image.prg.size := by
  have hsize : image.prg.size = image.header.prgBanks * 0x4000 := h.prg
  unfold prgBankCount
  rw [hsize]
  omega

/-- An image with CHR ROM has a whole number of banks of each size. -/
theorem Sized.chrBanks {image : Image} (h : image.Sized) (hrom : image.hasChrRam = false) :
    0 < image.header.chrBanks ∧
      image.chrBankCount 0x2000 = image.header.chrBanks ∧
      image.chrBankCount 0x1000 = image.header.chrBanks * 2 ∧
      image.chrBankCount 0x800 = image.header.chrBanks * 4 ∧
      image.chrBankCount 0x400 = image.header.chrBanks * 8 := by
  have hsize : image.chr.size = image.header.chrBanks * 0x2000 := h.chr
  have hpos : image.chr.size ≠ 0 := by
    intro hzero
    unfold hasChrRam at hrom
    rw [Array.isEmpty_iff_size_eq_zero.mpr hzero] at hrom
    cases hrom
  unfold chrBankCount
  rw [hsize]
  omega

/-! ## A blank image -/

/-- A header for an MMC1 with one PRG bank and one CHR bank, and zeros in both. -/
def blankRom : Bytes :=
  #[0x4E, 0x45, 0x53, 0x1A, 1, 1, 0x10, 0, 0, 0, 0, 0, 0, 0, 0, 0] ++ Array.replicate 0x6000 0

/-- What is read from `blankRom`. -/
def blank : Image where
  header := ⟨1, 1, 1, .horizontal, false, false⟩
  prg := Array.replicate 0x4000 0
  chr := Array.replicate 0x2000 0
  trainer := none
  key := Digest.sha1 blankRom

theorem header_blankRom : Header.parse blankRom = .ok blank.header := by
  have hsize : ¬ blankRom.size < Header.size := by simp [blankRom, Header.size]
  have hmagic : blankRom.extract 0 4 = Header.magic := by
    simp [blankRom, Array.extract_append, Header.magic]
  unfold Header.parse
  rw [dif_neg hsize]
  dsimp only
  rw [if_neg fun hne => hne hmagic]
  simp only [blankRom, Array.getElem_append]
  simp
  decide

theorem cut_blankRom {start length : Nat} (hstart : Header.size ≤ start) (hlength : length ≠ 0)
    (hend : start + length ≤ 0x6010) (part : Section) :
    cut blankRom start length part = .ok (Array.replicate length 0) := by
  have hsize : blankRom.size = 0x6010 := by simp [blankRom]
  have hzeros : blankRom.extract start (start + length) = Array.replicate length 0 := by
    have hcount : min (start + length - 16) 0x6000 - (start - 16) = length := by
      unfold Header.size at hstart
      omega
    unfold blankRom
    rw [Array.extract_append, Array.extract_replicate, Array.extract_empty_of_size_le_start hstart,
      Array.empty_append]
    exact congrArg (Array.replicate · 0) hcount
  unfold cut
  rw [if_neg hlength, if_pos (by omega), hzeros]

theorem parse_blankRom : parse blankRom = .ok blank := by
  refine parse_of_sections header_blankRom rfl ?_ ?_
  · exact cut_blankRom (by decide) (by decide) (by decide) .prg
  · exact cut_blankRom (by decide) (by decide) (by decide) .chr

end Image
end Nes
