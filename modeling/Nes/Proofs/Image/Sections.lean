/-
  Which byte strings are cartridge images, and what is read from them.

  The header declares how long trainer, PRG and CHR are (`declared`). A byte string is an image
  exactly if it starts with the magic and is as long as the header and the declared sections
  together; the sections are then its consecutive slices, and what follows them does not matter.
  Otherwise `fault?` is the first check that fails. That a section of length zero is never
  looked at makes no difference, because the header, or the section before it, reaches at least
  as far (`cut_eq`).

  `parse_eq` says this in one equation; `parse_exact` draws the conclusions.
-/
import Mathlib.Tactic.SplitIfs
import Nes.Proofs.Image

namespace Nes

/-- The lengths of the sections behind a header. -/
structure SectionSizes where
  trainer : Nat
  prg : Nat
  chr : Nat

namespace SectionSizes

/-- Where the PRG section starts. -/
def prgStart (sizes : SectionSizes) : Nat := 16 + sizes.trainer

/-- Where the CHR section starts. -/
def chrStart (sizes : SectionSizes) : Nat := sizes.prgStart + sizes.prg

/-- Where the image ends. -/
def total (sizes : SectionSizes) : Nat := sizes.chrStart + sizes.chr

end SectionSizes

namespace Image

/-- The lengths that the bytes 4, 5 and 6 of a file declare. -/
def declared (bytes : Bytes) : SectionSizes where
  trainer := if bit (bytes.getD 6 0) 2 then 512 else 0
  prg := 16384 * (bytes.getD 4 0).toNat
  chr := 8192 * (bytes.getD 5 0).toNat

/-- The first check that a file does not pass. -/
def fault? (bytes : Bytes) : Option LoadError :=
  let sizes := declared bytes
  if bytes.size < 16 then some (.tooShort bytes.size)
  else if bytes.extract 0 4 ≠ #[0x4E, 0x45, 0x53, 0x1A] then some .invalidMagic
  else if bytes.size < sizes.prgStart then
    some (.sectionTooShort .trainer sizes.trainer (bytes.size - 16))
  else if bytes.size < sizes.chrStart then
    some (.sectionTooShort .prg sizes.prg (bytes.size - sizes.prgStart))
  else if bytes.size < sizes.total then
    some (.sectionTooShort .chr sizes.chr (bytes.size - sizes.chrStart))
  else none

/-- The header as its bytes say, whether or not they can be read. -/
def declaredHeader (bytes : Bytes) : Header where
  prgBanks := (bytes.getD 4 0).toNat
  chrBanks := (bytes.getD 5 0).toNat
  mapper := Header.mapperOf (bytes.getD 6 0) (bytes.getD 7 0)
  mirroring := Header.mirroringOf (bytes.getD 6 0)
  battery := bit (bytes.getD 6 0) 1
  trainer := bit (bytes.getD 6 0) 2

/-- The slices of a file that its header declares. -/
def slices (bytes : Bytes) : Image :=
  let sizes := declared bytes
  { header := declaredHeader bytes
    prg := bytes.extract sizes.prgStart sizes.chrStart
    chr := bytes.extract sizes.chrStart sizes.total
    trainer := if bit (bytes.getD 6 0) 2 then some (bytes.extract 16 sizes.prgStart) else none
    key := Digest.sha1 bytes }

theorem declaredHeader_prgSize (bytes : Bytes) :
    (declaredHeader bytes).prgSize = (declared bytes).prg :=
  Nat.mul_comm _ 16384

theorem declaredHeader_chrSize (bytes : Bytes) :
    (declaredHeader bytes).chrSize = (declared bytes).chr :=
  Nat.mul_comm _ 8192

theorem header_eq (bytes : Bytes) :
    Header.parse bytes =
      if bytes.size < 16 then .error (.tooShort bytes.size)
      else if bytes.extract 0 4 ≠ #[0x4E, 0x45, 0x53, 0x1A] then .error .invalidMagic
      else .ok (declaredHeader bytes) := by
  unfold Header.parse Header.size Header.magic
  split
  · rfl
  · next hsize =>
    have hbyte (i : Nat) (hi : i < bytes.size) : bytes.getD i 0 = bytes[i] := by
      rw [Array.getD_eq_getD_getElem?, Array.getElem?_eq_getElem hi, Option.getD_some]
    unfold declaredHeader
    rw [hbyte 4 (by omega), hbyte 5 (by omega), hbyte 6 (by omega), hbyte 7 (by omega)]

/-- Cutting a section out, from a place inside the file. -/
theorem cut_eq {bytes : Bytes} {start : Nat} (h : start ≤ bytes.size) (length : Nat)
    (part : Section) :
    cut bytes start length part =
      if bytes.size < start + length then
        .error (.sectionTooShort part length (bytes.size - start))
      else .ok (bytes.extract start (start + length)) := by
  unfold cut
  split
  · next hzero =>
    subst hzero
    rw [if_neg (by omega), Nat.add_zero, Array.extract_empty_of_stop_le_start (Nat.le_refl start)]
  · split
    · rw [if_neg (by omega)]
    · rw [if_pos (by omega)]

/-- Behind a header that can be read, the three sections are cut out one after the other. -/
theorem parse_of_magic {bytes : Bytes} (hsize : ¬ bytes.size < 16)
    (hmagic : ¬ bytes.extract 0 4 ≠ #[0x4E, 0x45, 0x53, 0x1A]) :
    parse bytes =
      (cut bytes 16 (declared bytes).trainer .trainer).bind fun trainer =>
      (cut bytes (declared bytes).prgStart (declared bytes).prg .prg).bind fun prg =>
      (cut bytes (declared bytes).chrStart (declared bytes).chr .chr).bind fun chr =>
      .ok {
        header := declaredHeader bytes, prg, chr
        trainer := if bit (bytes.getD 6 0) 2 then some trainer else none
        key := Digest.sha1 bytes } := by
  rw [← declaredHeader_chrSize, SectionSizes.chrStart, ← declaredHeader_prgSize]
  unfold parse
  rw [header_eq, if_neg hsize, if_neg hmagic]
  rfl

/-- Reading a file either fails with the first check it does not pass, or gives its slices. -/
theorem parse_eq (bytes : Bytes) :
    parse bytes = (fault? bytes).elim (.ok (slices bytes)) .error := by
  have hprg : (declared bytes).prgStart = 16 + (declared bytes).trainer := rfl
  have hchr : (declared bytes).chrStart = (declared bytes).prgStart + (declared bytes).prg := rfl
  have htotal : (declared bytes).total = (declared bytes).chrStart + (declared bytes).chr := rfl
  unfold fault?
  dsimp only
  by_cases hsize : bytes.size < 16
  · unfold parse
    rw [header_eq, if_pos hsize, if_pos hsize]
    rfl
  rw [if_neg hsize]
  by_cases hmagic : bytes.extract 0 4 ≠ #[0x4E, 0x45, 0x53, 0x1A]
  · unfold parse
    rw [header_eq, if_neg hsize, if_pos hmagic, if_pos hmagic]
    rfl
  -- each section starts inside the file, because the one before it was found
  rw [if_neg hmagic, parse_of_magic hsize hmagic, cut_eq (by omega), ← hprg]
  by_cases htrainerEnd : bytes.size < (declared bytes).prgStart
  · rw [if_pos htrainerEnd, if_pos htrainerEnd]
    rfl
  rw [if_neg htrainerEnd, if_neg htrainerEnd, Except.bind, cut_eq (by omega), ← hchr]
  by_cases hprgEnd : bytes.size < (declared bytes).chrStart
  · rw [if_pos hprgEnd, if_pos hprgEnd]
    rfl
  rw [if_neg hprgEnd, if_neg hprgEnd, Except.bind, cut_eq (by omega), ← htotal]
  by_cases hchrEnd : bytes.size < (declared bytes).total
  · rw [if_pos hchrEnd, if_pos hchrEnd]
    rfl
  rw [if_neg hchrEnd, if_neg hchrEnd]
  rfl

theorem eq_slices_of_parse {bytes : Bytes} {image : Image} (h : parse bytes = .ok image) :
    image = slices bytes := by
  rw [parse_eq] at h
  cases hfault : fault? bytes with
  | none =>
    rw [hfault] at h
    cases h
    rfl
  | some error =>
    rw [hfault] at h
    cases h

theorem parse_eq_error_iff (bytes : Bytes) (error : LoadError) :
    parse bytes = .error error ↔ fault? bytes = some error := by
  rw [parse_eq]
  cases fault? bytes with
  | none => simp
  | some fault => simp

/-- A file has no fault exactly if the magic is there and every section fits in. -/
theorem fault?_eq_none_iff (bytes : Bytes) :
    fault? bytes = none ↔
      16 ≤ bytes.size ∧ bytes.extract 0 4 = #[0x4E, 0x45, 0x53, 0x1A] ∧
        (declared bytes).total ≤ bytes.size := by
  unfold fault? SectionSizes.total SectionSizes.chrStart SectionSizes.prgStart
  dsimp only
  constructor
  · intro h
    split_ifs at h with hsize hmagic
    exact ⟨by omega, Decidable.not_not.mp hmagic, by omega⟩
  · rintro ⟨hsize, hmagic, htotal⟩
    rw [if_neg (by omega), if_neg (Decidable.not_not.mpr hmagic), if_neg (by omega),
      if_neg (by omega), if_neg (by omega)]

/-! ## Files put together from their parts -/

theorem extract_middle {before part after : Bytes} {start stop : Nat} (hstart : start = before.size)
    (hstop : stop = before.size + part.size) :
    (before ++ part ++ after).extract start stop = part := by
  subst hstart hstop
  have hafter : after.extract (before.size - (before ++ part).size)
      (before.size + part.size - (before ++ part).size) = #[] := by
    rw [Array.size_append, Nat.sub_self]
    exact Array.extract_empty_of_stop_le_start (Nat.zero_le _)
  rw [Array.extract_append, hafter, Array.append_empty, Array.extract_append,
    Array.extract_empty_of_size_le_start (Nat.le_refl _), Array.empty_append, Nat.sub_self,
    Nat.add_sub_cancel_left, Array.extract_size]

theorem getD_append {header rest : Bytes} (h : header.size = 16) {i : Nat} (hi : i < 16) :
    (header ++ rest).getD i 0 = header.getD i 0 := by
  rw [Array.getD_eq_getD_getElem?, Array.getD_eq_getD_getElem?,
    Array.getElem?_append_left (by omega)]

theorem declared_append {header : Bytes} (h : header.size = 16) (rest : Bytes) :
    declared (header ++ rest) = declared header := by
  unfold declared
  rw [getD_append h (by decide), getD_append h (by decide), getD_append h (by decide)]

/-- Reading gives back the parts that a file was put together from. -/
theorem parse_append {header trainer prg chr : Bytes} (rest : Bytes) (hheader : header.size = 16)
    (hmagic : header.extract 0 4 = #[0x4E, 0x45, 0x53, 0x1A])
    (htrainer : trainer.size = (declared header).trainer)
    (hprg : prg.size = (declared header).prg) (hchr : chr.size = (declared header).chr) :
    ∃ image, parse (header ++ trainer ++ prg ++ chr ++ rest) = .ok image ∧
      image.trainer = (if bit (header.getD 6 0) 2 then some trainer else none) ∧
      image.prg = prg ∧ image.chr = chr := by
  generalize hbytes : header ++ trainer ++ prg ++ chr ++ rest = bytes
  -- the file as each section sees it: what comes before it, the section, what follows
  have hbehind : bytes = header ++ (trainer ++ (prg ++ (chr ++ rest))) := by
    rw [← hbytes]
    simp only [Array.append_assoc]
  have hatTrainer : bytes = header ++ trainer ++ (prg ++ (chr ++ rest)) := by
    rw [hbehind, Array.append_assoc]
  have hatPrg : bytes = header ++ trainer ++ prg ++ (chr ++ rest) := by
    rw [hbehind]
    simp only [Array.append_assoc]
  have hdeclared : declared bytes = declared header := by
    rw [hbehind, declared_append hheader]
  have hflag : bytes.getD 6 0 = header.getD 6 0 := by
    rw [hbehind, getD_append hheader (by decide)]
  have hprgStart : (declared bytes).prgStart = (header ++ trainer).size := by
    rw [hdeclared, SectionSizes.prgStart, Array.size_append, hheader, htrainer]
  have hchrStart : (declared bytes).chrStart = (header ++ trainer ++ prg).size := by
    rw [SectionSizes.chrStart, hprgStart, hdeclared, ← hprg, ← Array.size_append]
  have htotal : (declared bytes).total = (header ++ trainer ++ prg ++ chr).size := by
    rw [SectionSizes.total, hchrStart, hdeclared, ← hchr, ← Array.size_append]
  have hfault : fault? bytes = none := by
    rw [fault?_eq_none_iff]
    refine ⟨?_, ?_, ?_⟩
    · rw [hbehind, Array.size_append, hheader]
      exact Nat.le_add_right _ _
    · rw [hbehind, Array.extract_append, hmagic,
        Array.extract_empty_of_stop_le_start (by omega), Array.append_empty]
    · have hlength : bytes.size = (header ++ trainer ++ prg ++ chr).size + rest.size := by
        rw [← hbytes]
        exact Array.size_append
      omega
  refine ⟨slices bytes, ?_, ?_, ?_, ?_⟩
  · rw [parse_eq, hfault, Option.elim_none]
  · unfold slices
    dsimp only
    rw [hflag, hprgStart, hatTrainer, extract_middle hheader.symm Array.size_append]
  · unfold slices
    dsimp only
    rw [hprgStart, hchrStart, hatPrg, extract_middle rfl Array.size_append]
  · unfold slices
    dsimp only
    rw [hchrStart, htotal, ← hbytes, extract_middle rfl Array.size_append]

/-! ## The result -/

/-- A byte string is read exactly if the magic is there and it is as long as the header, and the
    sections that the header declares, need. What is read are the consecutive slices of these
    lengths; so a file put together from its parts gives them back, whatever follows them. A byte
    string that is not read gives the first check that it does not pass. -/
theorem parse_exact (bytes : Bytes) :
    ((∃ image, parse bytes = .ok image) ↔
      16 ≤ bytes.size ∧ bytes.extract 0 4 = #[0x4E, 0x45, 0x53, 0x1A] ∧
        16 + (declared bytes).trainer + (declared bytes).prg + (declared bytes).chr ≤
          bytes.size) ∧
    (∀ image, parse bytes = .ok image →
      image.trainer =
        (if bit (bytes.getD 6 0) 2 then some (bytes.extract 16 (16 + 512)) else none) ∧
      image.prg = bytes.extract (declared bytes).prgStart (declared bytes).chrStart ∧
      image.chr = bytes.extract (declared bytes).chrStart (declared bytes).total) ∧
    (∀ header trainer prg chr rest : Bytes, bytes = header ++ trainer ++ prg ++ chr ++ rest →
      header.size = 16 → header.extract 0 4 = #[0x4E, 0x45, 0x53, 0x1A] →
      trainer.size = (declared header).trainer → prg.size = (declared header).prg →
      chr.size = (declared header).chr →
      ∃ image, parse bytes = .ok image ∧
        image.trainer = (if bit (header.getD 6 0) 2 then some trainer else none) ∧
        image.prg = prg ∧ image.chr = chr) ∧
    (∀ error, parse bytes = .error error ↔ fault? bytes = some error) := by
  refine ⟨?_, fun image h => ?_, ?_, parse_eq_error_iff bytes⟩
  · have htotal : (declared bytes).total =
        16 + (declared bytes).trainer + (declared bytes).prg + (declared bytes).chr := rfl
    rw [← htotal, ← fault?_eq_none_iff, parse_eq]
    cases fault? bytes with
    | none => simp
    | some error => simp
  · obtain rfl := eq_slices_of_parse h
    refine ⟨?_, rfl, rfl⟩
    unfold slices SectionSizes.prgStart declared
    dsimp only
    split
    · rfl
    · rfl
  · rintro header trainer prg chr rest rfl hheader hmagic htrainer hprg hchr
    exact parse_append rest hheader hmagic htrainer hprg hchr

/-- A header that declares a trainer, one PRG bank and no CHR bank. -/
def trainerHeader : Bytes := #[0x4E, 0x45, 0x53, 0x1A, 1, 0, 4, 0, 0, 0, 0, 0, 0, 0, 0, 0]

/-- A file with a trainer, an empty CHR section and three bytes too many. -/
theorem parse_exact_of_trainer :
    ∃ image,
      parse (trainerHeader ++ .replicate 512 7 ++ .replicate 16384 8 ++ #[] ++ #[1, 2, 3]) =
        .ok image ∧
      image.trainer = some (.replicate 512 7) ∧ image.prg = .replicate 16384 8 ∧
      image.chr = #[] :=
  (parse_exact _).2.2.1 trainerHeader (.replicate 512 7) (.replicate 16384 8) #[] #[1, 2, 3] rfl
    rfl rfl Array.size_replicate Array.size_replicate rfl

/-- Of a file that is too short for its trainer and for its PRG section, the trainer is said to
    be missing. -/
example : fault? (trainerHeader ++ #[0, 0]) = some (.sectionTooShort .trainer 512 2) := by decide

end Image
end Nes
