/-
  Blocks of video memory, byte by byte.

  A block is read and written in runs, each as long as its bytes lie side by side in one table.
  `readEach` and `writeEach` go from address to address instead. A run does what its bytes do one
  by one (`toList_readRun`, `writeRun_eq`), and so does a block, by induction on its runs
  (`toList_readRuns`, `writeRuns_eq`), whatever the mirroring, and also where the addresses start
  over and later bytes fall on cells that earlier ones were written to.
-/
import Nes.Proofs.Ppu.Cells

namespace Nes

/-! ## Runs of an array -/

/-- The `count` bytes from `offset` on. -/
def Bytes.slice (bytes : Bytes) (offset count : Nat) : List UInt8 :=
  (bytes.toList.drop offset).take count

namespace Bytes

theorem slice_succ (bytes : Bytes) {offset : Nat} (h : offset < bytes.size) (count : Nat) :
    bytes.slice offset (count + 1) = bytes[offset] :: bytes.slice (offset + 1) count := by
  have hlist : offset < bytes.toList.length := h
  unfold slice
  rw [List.drop_eq_getElem_cons hlist, List.take_succ_cons, Array.getElem_toList]

theorem slice_add (bytes : Bytes) (offset first second : Nat) :
    bytes.slice offset (first + second) =
      bytes.slice offset first ++ bytes.slice (offset + first) second := by
  unfold slice
  rw [List.take_add, List.drop_drop]

theorem length_slice (bytes : Bytes) {offset count : Nat} (h : offset + count ≤ bytes.size) :
    (bytes.slice offset count).length = count := by
  unfold slice
  rw [List.length_take, List.length_drop, Array.length_toList]
  omega

theorem slice_all (bytes : Bytes) : bytes.slice 0 bytes.size = bytes.toList :=
  List.take_of_length_le (Nat.le_refl _)

theorem toList_extract (bytes : Bytes) (offset count : Nat) :
    (bytes.extract offset (offset + count)).toList = bytes.slice offset count := by
  unfold slice
  rw [Array.toList_extract, List.extract_eq_take_drop, Nat.add_sub_cancel_left]

end Bytes

namespace VideoMemory

/-- The bytes at `count` addresses from `addr` on. -/
def readEach (m : VideoMemory) (addr : Nat) : (count : Nat) → List UInt8
  | 0 => []
  | count + 1 => m.read addr :: m.readEach (addr + 1) count

/-- Stores bytes one by one at the addresses from `addr` on. -/
def writeEach (m : VideoMemory) (addr : Nat) : List UInt8 → VideoMemory
  | [] => m
  | value :: rest => (m.write addr value).writeEach (addr + 1) rest

variable {m : VideoMemory}

/-! ## Address by address -/

theorem cell_congr {a b : Nat} (h : a % 0x4000 = b % 0x4000) : m.cell a = m.cell b := by
  rw [← cell_mod m a, ← cell_mod m b, h]

theorem read_congr {a b : Nat} (h : a % 0x4000 = b % 0x4000) : m.read a = m.read b := by
  rw [read_eq, read_eq, cell_congr h]

theorem write_congr {a b : Nat} (h : a % 0x4000 = b % 0x4000) (value : UInt8) :
    m.write a value = m.write b value := by
  unfold write
  rw [cell_congr h]

theorem readEach_congr {a b : Nat} (h : a % 0x4000 = b % 0x4000) (count : Nat) :
    m.readEach a count = m.readEach b count := by
  induction count generalizing a b with
  | zero => rfl
  | succ count ih =>
    unfold readEach
    have hnext : (a + 1) % 0x4000 = (b + 1) % 0x4000 := by omega
    rw [read_congr h, ih hnext]

theorem writeEach_congr {a b : Nat} (h : a % 0x4000 = b % 0x4000) (data : List UInt8) :
    m.writeEach a data = m.writeEach b data := by
  induction data generalizing m a b with
  | nil => rfl
  | cons value data ih =>
    unfold writeEach
    have hnext : (a + 1) % 0x4000 = (b + 1) % 0x4000 := by omega
    rw [write_congr h, ih hnext]

theorem readEach_add (m : VideoMemory) (addr first second : Nat) :
    m.readEach addr (first + second) =
      m.readEach addr first ++ m.readEach (addr + first) second := by
  induction first generalizing addr with
  | zero => rw [Nat.zero_add, Nat.add_zero, readEach, List.nil_append]
  | succ first ih =>
    rw [Nat.add_right_comm, readEach, ih, readEach, List.cons_append, Nat.add_assoc, Nat.add_comm 1]

theorem writeEach_append (m : VideoMemory) (addr : Nat) (first second : List UInt8) :
    m.writeEach addr (first ++ second) =
      (m.writeEach addr first).writeEach (addr + first.length) second := by
  induction first generalizing m addr with
  | nil => rfl
  | cons value first ih =>
    rw [List.cons_append, writeEach, ih, writeEach, List.length_cons, Nat.add_assoc,
      Nat.add_comm 1]

theorem readEach_eq_map (m : VideoMemory) (addr count : Nat) :
    m.readEach addr count = (List.range count).map fun i => m.read ((addr + i) % 0x4000) := by
  induction count generalizing addr with
  | zero => rfl
  | succ count ih =>
    rw [readEach, ih, List.range_succ_eq_map, List.map_cons, List.map_map]
    congr 1
    · exact read_congr (by omega)
    · refine List.map_congr_left fun i _ => read_congr ?_
      show (addr + 1 + i) % 0x4000 % 0x4000 = (addr + (i + 1)) % 0x4000 % 0x4000
      omega

theorem writeEach_eq_foldl (m : VideoMemory) (addr : Nat) (data : List UInt8) (skipped : Nat) :
    m.writeEach (addr + skipped) data = (data.zipIdx skipped).foldl
      (fun m byte => m.write ((addr + byte.2) % 0x4000) byte.1) m := by
  induction data generalizing m skipped with
  | nil => rfl
  | cons value data ih =>
    rw [writeEach, List.zipIdx_cons, List.foldl_cons, Nat.add_assoc, ih]
    congr 1
    exact write_congr (by omega) value

/-! ## Runs -/

/-- A stretch of a table that shows the bytes of the addresses from `addr` on. -/
theorem slice_eq_readEach {cells : Bytes} {start addr count : Nat}
    (shows : ∀ i < count, cells[start + i]? = some (m.read (addr + i))) :
    cells.slice start count = m.readEach addr count := by
  induction count generalizing start addr with
  | zero => rfl
  | succ count ih =>
    have hfirst : cells[start]? = some (m.read addr) := shows 0 (Nat.succ_pos count)
    obtain ⟨hin, hbyte⟩ := Array.getElem?_eq_some_iff.mp hfirst
    have hrest : ∀ i < count, cells[start + 1 + i]? = some (m.read (addr + 1 + i)) := by
      intro i hi
      rw [Nat.add_assoc, Nat.add_assoc, Nat.add_comm 1]
      exact shows (i + 1) (Nat.succ_lt_succ hi)
    rw [cells.slice_succ hin, readEach, ih hrest, hbyte]

theorem read_pattern (m : VideoMemory) {addr : Nat} (h : addr < 0x2000) :
    m.patterns.toArray[addr]? = some (m.read addr) := by
  rw [read_eq, cell_pattern m h, Vector.getElem?_toArray, Vector.getElem?_eq_getElem h]
  rfl

theorem read_name (m : VideoMemory) {addr : Nat} (h : 0x2000 ≤ addr) (h' : addr < 0x3F00) :
    m.names.toArray[(nameIndex m.layout addr).val]? = some (m.read addr) := by
  rw [read_eq, cell_name m h h', Vector.getElem?_toArray, Vector.getElem?_eq_getElem (Fin.isLt _)]
  rfl

/-- Inside one table the nametable cells of successive addresses follow one another. -/
theorem val_nameIndex_add (layout : Vector (Fin 4) 4) {addr i : Nat}
    (h : addr % 0x400 + i < 0x400) :
    (nameIndex layout (addr + i)).val = (nameIndex layout addr).val + i := by
  have htable : (addr + i) / 0x400 = addr / 0x400 := by omega
  rw [val_nameIndex, val_nameIndex, htable]
  omega

/-- A run inside the pattern tables is a stretch of them. -/
theorem readEach_pattern (m : VideoMemory) {addr count : Nat} (fits : addr + count ≤ 0x2000) :
    m.readEach addr count = (m.patterns.toArray.extract addr (addr + count)).toList := by
  rw [Bytes.toList_extract]
  exact (slice_eq_readEach fun i hi => read_pattern m (by omega)).symm

/-- A run inside a nametable is a stretch of it. -/
theorem readEach_name (m : VideoMemory) {addr count : Nat} (names : 0x2000 ≤ addr)
    (fits : addr + count ≤ 0x3F00) (inside : addr % 0x400 + count ≤ 0x400) :
    m.readEach addr count = (m.names.toArray.extract (nameIndex m.layout addr)
      ((nameIndex m.layout addr).val + count)).toList := by
  rw [Bytes.toList_extract]
  refine (slice_eq_readEach fun i hi => ?_).symm
  rw [← val_nameIndex_add _ (by omega)]
  exact read_name m (by omega) (by omega)

theorem setIfInBounds_eq_set {n i : Nat} (cells : Vector UInt8 n) (h : i < n) (value : UInt8) :
    cells.setIfInBounds i value = cells.set i value := by
  apply Vector.toArray_inj.mp
  rw [Vector.toArray_setIfInBounds, Vector.toArray_set, Array.setIfInBounds_def, dif_pos]

/-- A run inside the pattern tables is a copy into them. -/
theorem writeEach_pattern (m : VideoMemory) {addr : Nat} {data : Bytes} {offset count : Nat}
    (fits : addr + count ≤ 0x2000) (enough : offset + count ≤ data.size) :
    m.writeEach addr (data.slice offset count) =
      { m with patterns := copyInto m.patterns addr data offset count } := by
  induction count generalizing m addr offset with
  | zero => rfl
  | succ count ih =>
    have hin : offset < data.size := by omega
    have hwrite : m.write addr data[offset] =
        { m with patterns := m.patterns.setIfInBounds addr data[offset] } := by
      have haddr : addr < 0x2000 := by omega
      unfold write
      rw [cell_pattern m haddr, setIfInBounds_eq_set _ haddr]
    rw [data.slice_succ hin, writeEach, ih (m.write addr data[offset]) (by omega) (by omega),
      hwrite, copyInto, dif_pos hin]

/-- A run inside a nametable is a copy into it. -/
theorem writeEach_name (m : VideoMemory) {addr start : Nat} {data : Bytes} {offset count : Nat}
    (names : 0x2000 ≤ addr) (fits : addr + count ≤ 0x3F00) (enough : offset + count ≤ data.size)
    (beside : ∀ i < count, (nameIndex m.layout (addr + i)).val = start + i) :
    m.writeEach addr (data.slice offset count) =
      { m with names := copyInto m.names start data offset count } := by
  induction count generalizing m addr start offset with
  | zero => rfl
  | succ count ih =>
    have hin : offset < data.size := by omega
    have hstart : (nameIndex m.layout addr).val = start := beside 0 (Nat.succ_pos count)
    have hwrite : m.write addr data[offset] =
        { m with names := m.names.setIfInBounds start data[offset] } := by
      unfold write
      rw [cell_name m names (by omega), ← hstart, setIfInBounds_eq_set _ (Fin.isLt _)]
    have hrest : ∀ i < count, (nameIndex (m.write addr data[offset]).layout (addr + 1 + i)).val =
        start + 1 + i := by
      intro i hi
      have hnext := beside (i + 1) (Nat.succ_lt_succ hi)
      rw [(sameWiring_write m addr data[offset]).1, Nat.add_assoc, Nat.add_comm 1, hnext]
      omega
    rw [data.slice_succ hin, writeEach,
      ih (m.write addr data[offset]) (by omega) (by omega) (by omega) hrest, hwrite, copyInto,
      dif_pos hin]

/-! ## Blocks -/

/-- A run has no more bytes than are wanted. -/
theorem runLength_le (addr wanted : Nat) (h : 0 < wanted) : runLength addr wanted ≤ wanted := by
  unfold runLength
  split
  · omega
  · split <;> omega

/-- A run reads what its addresses read. -/
theorem toList_readRun (m : VideoMemory) {addr : Nat} (h : addr < 0x4000) (wanted : Nat)
    (out : Bytes) : (m.readRun addr (runLength addr wanted) out).toList =
      out.toList ++ m.readEach addr (runLength addr wanted) := by
  unfold readRun runLength
  rcases region_cases h with pattern | name | palette
  · rw [cell_pattern m pattern, if_pos pattern]
    dsimp only
    rw [Array.toList_append, m.readEach_pattern (by omega)]
  · rw [cell_name m name.1 name.2, if_neg (by omega), if_pos name.2]
    dsimp only
    rw [Array.toList_append, m.readEach_name name.1 (by omega) (by omega)]
  · rw [cell_palette m palette.1 palette.2, if_neg (by omega), if_neg (by omega)]
    dsimp only
    rw [Array.toList_push, readEach, readEach, read_eq, cell_palette m palette.1 palette.2]
    rfl

/-- A run does what its bytes do one by one. -/
theorem writeRun_eq (m : VideoMemory) {addr : Nat} (h : addr < 0x4000) {data : Bytes}
    {offset : Nat} (more : offset < data.size) :
    m.writeRun addr data offset (runLength addr (data.size - offset)) =
      m.writeEach addr (data.slice offset (runLength addr (data.size - offset))) := by
  have hle := runLength_le addr (data.size - offset) (by omega)
  unfold writeRun
  rcases region_cases h with pattern | name | palette
  · rw [cell_pattern m pattern]
    have hrun : runLength addr (data.size - offset) =
        min (data.size - offset) (0x2000 - addr) := if_pos pattern
    have hfits : addr + runLength addr (data.size - offset) ≤ 0x2000 := by omega
    exact (m.writeEach_pattern hfits (by omega)).symm
  · rw [cell_name m name.1 name.2]
    have hrun : runLength addr (data.size - offset) =
        min (data.size - offset) (min (0x400 - addr % 0x400) (0x3F00 - addr)) := by
      unfold runLength
      rw [if_neg (by omega), if_pos name.2]
    refine (m.writeEach_name name.1 (by omega) (by omega) fun i hi => ?_).symm
    exact val_nameIndex_add m.layout (by omega)
  · rw [cell_palette m palette.1 palette.2]
    have hrun : runLength addr (data.size - offset) = 1 := by
      unfold runLength
      rw [if_neg (by omega), if_neg (by omega)]
    rw [hrun, data.slice_succ more, writeEach, Array.getD_eq_getD_getElem?,
      Array.getElem?_eq_getElem more]
    rfl

theorem writeRun_mod (m : VideoMemory) (addr : Nat) (data : Bytes) (offset count : Nat) :
    m.writeRun (addr % 0x4000) data offset count = m.writeRun addr data offset count := by
  unfold writeRun
  rw [cell_mod, write_congr (Nat.mod_mod addr 0x4000)]

theorem readRun_mod (m : VideoMemory) (addr count : Nat) (out : Bytes) :
    m.readRun (addr % 0x4000) count out = m.readRun addr count out := by
  unfold readRun
  rw [cell_mod]

/-- A block does what its bytes do one by one. -/
theorem writeRuns_eq (m : VideoMemory) (addr : Nat) (data : Bytes) (offset : Nat) :
    m.writeRuns addr data offset = m.writeEach addr (data.slice offset (data.size - offset)) := by
  fun_induction writeRuns m addr data offset with
  | case1 m addr offset more count _ ih =>
    have hle : count ≤ data.size - offset := runLength_le _ _ (by omega)
    have hsplit : data.size - offset = count + (data.size - (offset + count)) := by omega
    have hslice : (data.slice offset count).length = count := data.length_slice (by omega)
    have hrun : m.writeRun addr data offset count = m.writeEach addr (data.slice offset count) := by
      rw [← writeRun_mod, writeRun_eq m (Nat.mod_lt _ (by decide)) more]
      exact writeEach_congr (Nat.mod_mod addr 0x4000) _
    rw [ih, hrun, hsplit, data.slice_add, writeEach_append, hslice]
    exact writeEach_congr (by omega) _
  | case2 m addr offset stop =>
    have hnone : data.size - offset = 0 := by omega
    rw [hnone]
    rfl

theorem toList_readRuns (m : VideoMemory) (addr wanted : Nat) (out : Bytes) :
    (m.readRuns addr wanted out).toList = out.toList ++ m.readEach addr wanted := by
  fun_induction readRuns m addr wanted out with
  | case1 addr wanted out more count _ ih =>
    have hle : count ≤ wanted := runLength_le _ _ more
    have hsplit : wanted = count + (wanted - count) := by omega
    have hrun : (m.readRun addr count out).toList = out.toList ++ m.readEach addr count := by
      rw [← readRun_mod, toList_readRun m (Nat.mod_lt _ (by decide))]
      congr 1
      exact readEach_congr (Nat.mod_mod addr 0x4000) _
    have hrest : m.readEach (addr % 0x4000 + count) (wanted - count) =
        m.readEach (addr + count) (wanted - count) := readEach_congr (by omega) _
    rw [ih, hrun, hrest, List.append_assoc, ← readEach_add, ← hsplit]
  | case2 addr wanted out stop =>
    have hnone : wanted = 0 := by omega
    rw [hnone, readEach, List.append_nil]

end VideoMemory

namespace Ppu

theorem foldl_writeByte (ppu : Ppu) (addr : Nat) (bytes : List (UInt8 × Nat)) :
    bytes.foldl (fun ppu byte => ppu.writeByte ((addr + byte.2) % 0x4000) byte.1) ppu =
      { ppu with
        memory := bytes.foldl (fun m byte => m.write ((addr + byte.2) % 0x4000) byte.1)
          ppu.memory } := by
  induction bytes generalizing ppu with
  | nil => rfl
  | cons byte bytes ih => exact ih (ppu.writeByte ((addr + byte.2) % 0x4000) byte.1)

/-- Writing a block is writing its bytes one by one at successive addresses, and reading a block
    is reading them; after the last address comes the first. -/
theorem blocks_byte_by_byte (ppu : Ppu) (addr : Nat) :
    (∀ data : Bytes, ppu.writeBlock addr data = data.toList.zipIdx.foldl
      (fun ppu byte => ppu.writeByte ((addr + byte.2) % 0x4000) byte.1) ppu) ∧
    ∀ size, (ppu.readBlock addr size).toList =
      (List.range size).map fun i => ppu.readByte ((addr + i) % 0x4000) := by
  constructor
  · intro data
    have hruns : ppu.memory.writeBlock addr data = ppu.memory.writeEach addr data.toList := by
      rw [← data.slice_all]
      exact VideoMemory.writeRuns_eq ppu.memory addr data 0
    have hbytes := VideoMemory.writeEach_eq_foldl ppu.memory addr data.toList 0
    rw [foldl_writeByte, ← hbytes, Nat.add_zero, ← hruns]
    rfl
  · intro size
    have hruns := VideoMemory.toList_readRuns ppu.memory addr size #[]
    rw [VideoMemory.readEach_eq_map] at hruns
    exact hruns

end Ppu
end Nes
