/-
  Video memory, with every index and every length looked at.

  The pattern tables are two tables of 0x1000 bytes, the nametables four of 0x400. An access names a
  table and an offset into it, and `place?` finds neither a table that is not there nor an offset
  past its end; a run of a block names a stretch of a table, and `stretch?` finds none that goes on
  past the end. The length of a run is found by checked subtractions, may not be more than is
  wanted, and may not be nothing, so that a block comes to an end.

  None of this ever fails, and it comes to the same as the plain functions, whose runs go on from
  one pattern table into the other (`read?_eq`, `write?_eq`, `writeBlock?_eq`, `readBlock?_eq`): a
  run does what its bytes do one by one, however long it is.
-/
import Nes.Proofs.Checked
import Nes.Proofs.Ppu.Blocks

namespace Nes

open Checked

namespace VideoMemory

/-! ## Single bytes -/

/-- The place of an offset into one of several tables of `size` bytes. -/
def place? (tables size table offset : Nat) : Option Nat :=
  if table < tables ∧ offset < size then some (table * size + offset) else none

/-- The nametable of an address, and the offset into it. The subtraction wraps. -/
def slot? (m : VideoMemory) (addr : Nat) : Option (Fin 4 × Nat) := do
  let relative := (addr + 0x10000 - 0x2000) % 0x10000 % 0x1000
  let table ← m.layout[relative / 0x400]?
  return (table, relative % 0x400)

/-- `read`, checked. -/
def read? (m : VideoMemory) (addr : Nat) : Option UInt8 :=
  let addr := addr % 0x4000
  if addr < 0x2000 then do
    let place ← place? 2 0x1000 (addr / 0x1000) (addr % 0x1000)
    m.patterns[place]?
  else if addr < 0x3F00 then do
    let slot ← m.slot? addr
    let place ← place? 4 0x400 slot.1 slot.2
    m.names[place]?
  else m.palette[entryAt addr]?

/-- `write`, checked. -/
def write? (m : VideoMemory) (addr : Nat) (value : UInt8) : Option VideoMemory :=
  let addr := addr % 0x4000
  if addr < 0x2000 then do
    let place ← place? 2 0x1000 (addr / 0x1000) (addr % 0x1000)
    let patterns ← set? m.patterns place value
    return { m with patterns }
  else if addr < 0x3F00 then do
    let slot ← m.slot? addr
    let place ← place? 4 0x400 slot.1 slot.2
    let names ← set? m.names place value
    return { m with names }
  else do
    let palette ← set? m.palette (entryAt addr) (value &&& 0x3F)
    return { m with palette }

variable {m : VideoMemory} {addr : Nat}

theorem place?_eq {tables size table offset : Nat} (htable : table < tables)
    (hoffset : offset < size) : place? tables size table offset = some (table * size + offset) :=
  if_pos ⟨htable, hoffset⟩

theorem patternPlace_eq (h : addr < 0x2000) :
    place? 2 0x1000 (addr / 0x1000) (addr % 0x1000) = some addr := by
  have hparts : addr / 0x1000 * 0x1000 + addr % 0x1000 = addr := by omega
  rw [place?_eq (by omega) (Nat.mod_lt _ (by decide)), hparts]

theorem slot?_eq (m : VideoMemory) (h : 0x2000 ≤ addr) (h' : addr < 0x3F00) :
    m.slot? addr = some (m.layout.get (wrap (addr / 0x400)), addr % 0x400) := by
  have hrelative : (addr + 0x10000 - 0x2000) % 0x10000 % 0x1000 = addr % 0x1000 := by omega
  have hin : addr % 0x1000 / 0x400 < 4 := by omega
  have htable : m.layout[addr % 0x1000 / 0x400] = m.layout.get (wrap (addr / 0x400)) := by
    have hwrap : addr % 0x1000 / 0x400 = addr / 0x400 % 4 := by omega
    simp only [hwrap]
    rfl
  have hoffset : addr % 0x1000 % 0x400 = addr % 0x400 := by omega
  unfold slot?
  rw [hrelative]
  dsimp only
  rw [Vector.getElem?_eq_getElem hin, htable, hoffset]
  rfl

theorem namePlace_eq (m : VideoMemory) (addr : Nat) :
    place? 4 0x400 (m.layout.get (wrap (addr / 0x400))).val (addr % 0x400) =
      some (nameIndex m.layout addr).val := by
  rw [place?_eq (Fin.isLt _) (Nat.mod_lt _ (by decide)), val_nameIndex]

theorem read?_eq (m : VideoMemory) (addr : Nat) : m.read? addr = some (m.read addr) := by
  have haddr : addr % 0x4000 < 0x4000 := Nat.mod_lt _ (by decide)
  rw [read_eq, ← cell_mod]
  unfold read?
  dsimp only
  rcases region_cases haddr with pattern | name | palette
  · rw [if_pos pattern, patternPlace_eq pattern, cell_pattern m pattern]
    exact Vector.getElem?_eq_getElem pattern
  · rw [if_neg (by omega), if_pos name.2, slot?_eq m name.1 name.2, cell_name m name.1 name.2]
    refine (bind_some rfl).trans ((bind_some (namePlace_eq m _)).trans ?_)
    exact Vector.getElem?_eq_getElem (Fin.isLt _)
  · rw [if_neg (by omega), if_neg (by omega), ← val_paletteIndex,
      cell_palette m palette.1 palette.2]
    exact Vector.getElem?_eq_getElem (Fin.isLt _)

theorem write?_eq (m : VideoMemory) (addr : Nat) (value : UInt8) :
    m.write? addr value = some (m.write addr value) := by
  have haddr : addr % 0x4000 < 0x4000 := Nat.mod_lt _ (by decide)
  rw [← write_congr (Nat.mod_mod addr 0x4000)]
  unfold write? write
  dsimp only
  rcases region_cases haddr with pattern | name | palette
  · rw [if_pos pattern, patternPlace_eq pattern, cell_pattern m pattern]
    exact bind_some (set?_eq m.patterns pattern value)
  · rw [if_neg (by omega), if_pos name.2, slot?_eq m name.1 name.2, cell_name m name.1 name.2]
    refine (bind_some rfl).trans ((bind_some (namePlace_eq m _)).trans ?_)
    exact bind_some (set?_eq m.names (Fin.isLt _) value)
  · rw [if_neg (by omega), if_neg (by omega), ← val_paletteIndex,
      cell_palette m palette.1 palette.2]
    exact bind_some (set?_eq m.palette (Fin.isLt _) _)

/-! ## Runs -/

/-- The place of `count` bytes of one of several tables of `size` bytes. -/
def stretch? (tables size table start count : Nat) : Option Nat :=
  if table < tables ∧ start + count ≤ size then some (table * size + start) else none

/-- How many of `wanted` bytes from an address on lie side by side in one table. -/
def runLength? (m : VideoMemory) (addr wanted : Nat) : Option Nat :=
  if addr < 0x2000 then do
    let left ← sub? 0x1000 (addr % 0x1000)
    return min wanted left
  else if addr < 0x3F00 then do
    let slot ← m.slot? addr
    let left ← sub? 0x400 slot.2
    let below ← sub? 0x3F00 addr
    return min (min wanted left) below
  else some 1

/-- `writeRun`, checked. -/
def writeRun? (m : VideoMemory) (addr : Nat) (data : Bytes) (offset count : Nat) :
    Option VideoMemory :=
  if data.size < offset + count then none
  else if addr < 0x2000 then do
    let start ← stretch? 2 0x1000 (addr / 0x1000) (addr % 0x1000) count
    return { m with patterns := copyInto m.patterns start data offset count }
  else if addr < 0x3F00 then do
    let slot ← m.slot? addr
    let start ← stretch? 4 0x400 slot.1 slot.2 count
    return { m with names := copyInto m.names start data offset count }
  else do
    let value ← data[offset]?
    m.write? addr value

/-- `readRun`, checked. -/
def readRun? (m : VideoMemory) (addr count : Nat) (out : Bytes) : Option Bytes :=
  if addr < 0x2000 then do
    let start ← stretch? 2 0x1000 (addr / 0x1000) (addr % 0x1000) count
    return out ++ m.patterns.toArray.extract start (start + count)
  else if addr < 0x3F00 then do
    let slot ← m.slot? addr
    let start ← stretch? 4 0x400 slot.1 slot.2 count
    return out ++ m.names.toArray.extract start (start + count)
  else do
    let value ← m.read? addr
    return out.push value

/-- `count` bytes from an address on that lie side by side in one table. -/
structure IsRun (addr wanted count : Nat) : Prop where
  pos : 0 < count
  le : count ≤ wanted
  pattern : addr < 0x2000 → addr % 0x1000 + count ≤ 0x1000
  name : 0x2000 ≤ addr → addr < 0x3F00 → addr % 0x400 + count ≤ 0x400 ∧ addr + count ≤ 0x3F00
  palette : 0x3F00 ≤ addr → count = 1

theorem stretch?_eq {tables size table start count : Nat} (htable : table < tables)
    (hstart : start + count ≤ size) :
    stretch? tables size table start count = some (table * size + start) :=
  if_pos ⟨htable, hstart⟩

theorem patternStretch_eq (h : addr < 0x2000) {count : Nat}
    (fits : addr % 0x1000 + count ≤ 0x1000) :
    stretch? 2 0x1000 (addr / 0x1000) (addr % 0x1000) count = some addr := by
  have hparts : addr / 0x1000 * 0x1000 + addr % 0x1000 = addr := by omega
  rw [stretch?_eq (by omega) fits, hparts]

theorem nameStretch_eq (m : VideoMemory) {count : Nat} (fits : addr % 0x400 + count ≤ 0x400) :
    stretch? 4 0x400 (m.layout.get (wrap (addr / 0x400))).val (addr % 0x400) count =
      some (nameIndex m.layout addr).val := by
  rw [stretch?_eq (Fin.isLt _) fits, val_nameIndex]

/-- There is a run from every address on. -/
theorem exists_run (m : VideoMemory) (h : addr < 0x4000) {wanted : Nat} (more : 0 < wanted) :
    ∃ count, m.runLength? addr wanted = some count ∧ IsRun addr wanted count := by
  unfold runLength?
  rcases region_cases h with pattern | name | palette
  · refine ⟨min wanted (0x1000 - addr % 0x1000), ?_, ?_⟩
    · rw [if_pos pattern]
      exact bind_some (sub?_eq (by omega))
    · constructor <;> omega
  · refine ⟨min (min wanted (0x400 - addr % 0x400)) (0x3F00 - addr), ?_, ?_⟩
    · rw [if_neg (by omega), if_pos name.2, slot?_eq m name.1 name.2]
      refine (bind_some rfl).trans ((bind_some (sub?_eq ?_)).trans (bind_some (sub?_eq ?_)))
      · dsimp only
        omega
      · omega
    · constructor <;> omega
  · refine ⟨1, ?_, ?_⟩
    · rw [if_neg (by omega), if_neg (by omega)]
    · constructor <;> omega

variable {data : Bytes} {offset wanted count : Nat}

/-- A run is written as its bytes are one by one. -/
theorem writeRun?_eq (m : VideoMemory) (h : addr < 0x4000)
    (run : IsRun addr (data.size - offset) count) :
    m.writeRun? addr data offset count = some (m.writeEach addr (data.slice offset count)) := by
  have hpos := run.pos
  have hle := run.le
  have henough : offset + count ≤ data.size := by omega
  unfold writeRun?
  rw [if_neg (Nat.not_lt.mpr henough)]
  rcases region_cases h with pattern | name | palette
  · have hfits := run.pattern pattern
    rw [if_pos pattern, patternStretch_eq pattern hfits,
      m.writeEach_pattern (by omega) henough]
    rfl
  · obtain ⟨hfits, hbelow⟩ := run.name name.1 name.2
    have hbeside : ∀ i < count, (nameIndex m.layout (addr + i)).val =
        (nameIndex m.layout addr).val + i := fun i hi => val_nameIndex_add m.layout (by omega)
    rw [if_neg (by omega), if_pos name.2, slot?_eq m name.1 name.2,
      m.writeEach_name name.1 hbelow henough hbeside]
    exact (bind_some rfl).trans (bind_some (nameStretch_eq m hfits))
  · have hin : offset < data.size := by omega
    rw [if_neg (by omega), if_neg (by omega), run.palette palette.1, data.slice_succ hin,
      Array.getElem?_eq_getElem hin]
    exact m.write?_eq addr data[offset]

/-- A run reads what its addresses read. -/
theorem readRun?_eq (m : VideoMemory) (h : addr < 0x4000) (run : IsRun addr wanted count)
    (out : Bytes) :
    m.readRun? addr count out = some (out ++ (m.readEach addr count).toArray) := by
  unfold readRun?
  rcases region_cases h with pattern | name | palette
  · have hfits := run.pattern pattern
    rw [if_pos pattern, patternStretch_eq pattern hfits, m.readEach_pattern (by omega)]
    rfl
  · obtain ⟨hfits, hbelow⟩ := run.name name.1 name.2
    rw [if_neg (by omega), if_pos name.2, slot?_eq m name.1 name.2,
      m.readEach_name name.1 hbelow hfits]
    exact (bind_some rfl).trans (bind_some (nameStretch_eq m hfits))
  · rw [if_neg (by omega), if_neg (by omega), run.palette palette.1, m.read?_eq]
    refine congrArg some (Array.ext' ?_)
    rw [Array.toList_push, Array.toList_append]
    rfl

/-! ## Blocks -/

/-- `writeRuns`, checked. -/
def writeRuns? (m : VideoMemory) (addr : Nat) (data : Bytes) (offset : Nat) :
    Option VideoMemory :=
  if _more : offset < data.size then
    match m.runLength? addr (data.size - offset) with
    | none => none
    | some count =>
      if _progress : 0 < count then do
        let m ← m.writeRun? addr data offset count
        let next ← add? wordTop addr (count % 0x10000)
        writeRuns? m (next % 0x4000) data (offset + count)
      else none
  else some m
termination_by data.size - offset

/-- `writeBlock`, checked. -/
def writeBlock? (m : VideoMemory) (addr : Nat) (data : Bytes) : Option VideoMemory :=
  m.writeRuns? (addr % 0x4000) data 0

/-- `readRuns`, checked. -/
def readRuns? (m : VideoMemory) (addr wanted : Nat) (out : Bytes) : Option Bytes :=
  if _more : 0 < wanted then
    match m.runLength? addr wanted with
    | none => none
    | some count =>
      if _progress : 0 < count ∧ count ≤ wanted then do
        let out ← m.readRun? addr count out
        let next ← add? wordTop addr (count % 0x10000)
        readRuns? m (next % 0x4000) (wanted - count) out
      else none
  else some out
termination_by wanted
decreasing_by exact Nat.sub_lt_of_pos_le _progress.1 _progress.2

/-- `readBlock`, checked. -/
def readBlock? (m : VideoMemory) (addr size : Nat) : Option Bytes :=
  m.readRuns? (addr % 0x4000) size #[]

/-- The address after a run. -/
theorem afterRun_eq (h : addr < 0x4000) (run : IsRun addr wanted count) :
    add? wordTop addr (count % 0x10000) = some (addr + count) := by
  have hsmall : count ≤ 0x1000 := by
    have hpattern := run.pattern
    have hname := run.name
    have hpalette := run.palette
    omega
  have hcount : count % 0x10000 = count := Nat.mod_eq_of_lt (by omega)
  rw [hcount]
  exact add?_eq (by unfold wordTop; omega)

theorem writeRuns?_eq (m : VideoMemory) (h : addr < 0x4000) (data : Bytes) (offset : Nat) :
    m.writeRuns? addr data offset =
      some (m.writeEach addr (data.slice offset (data.size - offset))) := by
  -- by induction on what is left, which every run makes less
  induction hleft : data.size - offset using Nat.strongRecOn generalizing m addr offset with
  | ind left ih =>
    subst hleft
    unfold writeRuns?
    by_cases more : offset < data.size
    · have hleft : 0 < data.size - offset := by omega
      obtain ⟨count, hcount, run⟩ := m.exists_run h hleft
      have hpos := run.pos
      have hle := run.le
      have hsplit : data.size - offset = count + (data.size - (offset + count)) := by omega
      have hslice : (data.slice offset count).length = count := data.length_slice (by omega)
      have hnext : (addr + count) % 0x4000 < 0x4000 := Nat.mod_lt _ (by decide)
      rw [dif_pos more, hcount]
      dsimp only
      rw [dif_pos hpos, writeRun?_eq m h run, afterRun_eq h run]
      refine (bind_some rfl).trans ((bind_some rfl).trans ?_)
      rw [ih _ (by omega) _ hnext _ rfl, hsplit, data.slice_add, writeEach_append, hslice]
      exact congrArg some (writeEach_congr (Nat.mod_mod _ _) _)
    · have hnone : data.size - offset = 0 := by omega
      rw [dif_neg more, hnone]
      rfl

theorem readRuns?_eq (m : VideoMemory) (h : addr < 0x4000) (wanted : Nat) (out : Bytes) :
    m.readRuns? addr wanted out = some (out ++ (m.readEach addr wanted).toArray) := by
  induction wanted using Nat.strongRecOn generalizing addr out with
  | ind wanted ih =>
    unfold readRuns?
    by_cases more : 0 < wanted
    · obtain ⟨count, hcount, run⟩ := m.exists_run h more
      have hpos := run.pos
      have hle := run.le
      have hsplit : wanted = count + (wanted - count) := by omega
      have hnext : (addr + count) % 0x4000 < 0x4000 := Nat.mod_lt _ (by decide)
      have hwrap : m.readEach ((addr + count) % 0x4000) (wanted - count) =
          m.readEach (addr + count) (wanted - count) := readEach_congr (Nat.mod_mod _ _) _
      rw [dif_pos more, hcount]
      dsimp only
      rw [dif_pos ⟨hpos, hle⟩, readRun?_eq m h run, afterRun_eq h run]
      refine (bind_some rfl).trans ((bind_some rfl).trans ?_)
      rw [ih _ (by omega) hnext, hwrap]
      refine congrArg some (Array.ext' ?_)
      rw [Array.toList_append, Array.toList_append, Array.toList_append, List.append_assoc,
        ← m.readEach_add, ← hsplit]
    · have hnone : wanted = 0 := by omega
      rw [dif_neg more, hnone]
      exact congrArg some (Array.ext' (by rw [Array.toList_append]; exact (List.append_nil _).symm))

theorem writeBlock?_eq (m : VideoMemory) (addr : Nat) (data : Bytes) :
    m.writeBlock? addr data = some (m.writeBlock addr data) := by
  unfold writeBlock? writeBlock
  rw [m.writeRuns?_eq (Nat.mod_lt _ (by decide)), writeRuns_eq]
  exact congrArg some (writeEach_congr (Nat.mod_mod _ _) _)

theorem readBlock?_eq (m : VideoMemory) (addr size : Nat) :
    m.readBlock? addr size = some (m.readBlock addr size) := by
  have hwrap : m.readEach (addr % 0x4000) size = m.readEach addr size :=
    readEach_congr (Nat.mod_mod _ _) _
  unfold readBlock? readBlock
  rw [m.readRuns?_eq (Nat.mod_lt _ (by decide)), hwrap]
  refine congrArg some (Array.ext' ?_)
  rw [toList_readRuns, Array.toList_append]

end VideoMemory
end Nes
