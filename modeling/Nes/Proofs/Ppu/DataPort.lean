/-
  Transfers through the data port.

  A program sets the address of the data port with two writes to $2006 and then writes or reads
  $2007; each access moves the address on by one or, if $2000 says so, by 32. Below the palette a
  read gives the byte that the read before it found, so the first one of a transfer is stale.

  One write stores its byte at the address (`writeRegister_data`), one read keeps the byte at the
  address for the next one (`readRegister_data`), and both move on. By induction on their number,
  writes store their bytes at all the addresses (`writePort_eq`), and reads give the bytes at all
  the addresses, one read late (`readPort_eq`). If no two of the addresses share a byte, what was
  stored there is what is read (`read_writeEachAt`), and so it is through the port
  (`reads_back_transfer`).
-/
import Nes.Proofs.Ppu.Cells

namespace Nes

theorem Control.step_le (control : Control) : control.step ≤ 32 := by
  unfold step
  split <;> decide

namespace VideoMemory

/-! ## Bytes at a list of addresses -/

theorem forall_range' {P : Nat → Prop} {addr count step : Nat}
    (h : ∀ k < count, P (addr + k * step)) : ∀ a ∈ List.range' addr count step, P a := by
  intro a ha
  obtain ⟨k, hk, rfl⟩ := List.mem_range'.mp ha
  rw [Nat.mul_comm]
  exact h k hk

theorem pairwise_range' {R : Nat → Nat → Prop} {addr count step : Nat}
    (h : ∀ k < count, ∀ j < k, R (addr + j * step) (addr + k * step)) :
    (List.range' addr count step).Pairwise R := by
  rw [List.pairwise_iff_getElem]
  intro j k _ hk less
  rw [List.length_range'] at hk
  rw [List.getElem_range', List.getElem_range', Nat.mul_comm, Nat.mul_comm _ k]
  exact h k hk j less

/-- Stores bytes, each at its own address. -/
def writeEachAt (m : VideoMemory) : List Nat → List UInt8 → VideoMemory
  | addr :: addrs, value :: data => (m.write addr value).writeEachAt addrs data
  | _, _ => m

variable {m : VideoMemory}

theorem sameWiring_writeEachAt (m : VideoMemory) (addrs : List Nat) (data : List UInt8) :
    m.SameWiring (m.writeEachAt addrs data) := by
  fun_induction writeEachAt m addrs data with
  | case1 m addr addrs value data ih =>
    have hfirst := sameWiring_write m addr value
    exact ⟨ih.1.trans hfirst.1, ih.2.trans hfirst.2⟩
  | case2 => exact ⟨rfl, rfl⟩

/-- A cell that none of the addresses denotes keeps its byte. -/
theorem byteAt_writeEachAt {addrs : List Nat} {cell : VideoCell}
    (untouched : ∀ addr ∈ addrs, m.cell addr ≠ cell) (data : List UInt8) :
    (m.writeEachAt addrs data).byteAt cell = m.byteAt cell := by
  fun_induction writeEachAt m addrs data with
  | case1 m addr addrs value data ih =>
    obtain ⟨hfirst, hrest⟩ := List.forall_mem_cons.mp untouched
    have hlater : ∀ later ∈ addrs, (m.write addr value).cell later ≠ cell := by
      intro later hmem
      rw [cell_write]
      exact hrest later hmem
    rw [ih hlater, byteAt_write, if_neg hfirst]
  | case2 => rfl

/-- Below the palette, bytes in cells of their own are read back as they were stored. -/
theorem read_writeEachAt {addrs : List Nat} {data : List UInt8}
    (enough : addrs.length = data.length) (below : ∀ addr ∈ addrs, addr < 0x3F00)
    (distinct : addrs.Pairwise fun a b => m.cell a ≠ m.cell b) :
    addrs.map (m.writeEachAt addrs data).read = data := by
  induction addrs generalizing m data with
  | nil => exact (List.length_eq_zero_iff.mp enough.symm).symm
  | cons addr addrs ih =>
    obtain ⟨value, data, rfl⟩ := List.exists_cons_of_length_eq_add_one enough.symm
    obtain ⟨hbelow, hbelows⟩ := List.forall_mem_cons.mp below
    obtain ⟨hapart, hdistinct⟩ := List.pairwise_cons.mp distinct
    -- the later bytes are stored elsewhere
    have huntouched : ∀ later ∈ addrs, (m.write addr value).cell later ≠ m.cell addr := by
      intro later hmem same
      rw [cell_write] at same
      exact hapart later hmem same.symm
    have hcell : (m.writeEachAt (addr :: addrs) (value :: data)).cell addr = m.cell addr := by
      unfold cell
      rw [(sameWiring_writeEachAt m _ _).1]
    have hkept : kept (m.cell addr) value = value := by
      rw [kept_cell, if_neg (by omega)]
    have hfirst : (m.writeEachAt (addr :: addrs) (value :: data)).read addr = value := by
      rw [read_eq, hcell, writeEachAt, byteAt_writeEachAt huntouched, byteAt_write, if_pos rfl,
        hkept]
    have hcells : addrs.Pairwise fun a b =>
        (m.write addr value).cell a ≠ (m.write addr value).cell b := by
      simpa only [cell_write] using hdistinct
    rw [List.map_cons, hfirst]
    exact congrArg (value :: ·) (ih (Nat.succ.inj enough) hbelows hcells)

end VideoMemory

open VideoMemory

namespace Ppu

variable {ppu : Ppu} {addr : Nat}

/-! ## The address -/

/-- Sets the address of the data port: the high byte goes first. -/
def setAddress (ppu : Ppu) (addr : UInt16) : Ppu :=
  (ppu.writeRegister .address (highByte addr)).writeRegister .address (lowByte addr)

/-- With no half-written pair, the two writes are an address of 14 bits. -/
theorem setAddress_eq (clear : ppu.scroll.second = false) (addr : UInt16) :
    ppu.setAddress addr =
      { ppu with
        latch := lowByte addr
        scroll := { ppu.scroll with
          t := .ofNat (addr.toNat % 0x4000)
          v := .ofNat (addr.toNat % 0x4000) } } := by
  obtain ⟨control, mask, status, oamAddress, ⟨v, t, fineX, second⟩⟩ := ppu
  obtain rfl : second = false := clear
  have hhalves : (VideoAddress.ofNat ((highByte addr).toNat % 64 * 256 + t.toNat % 256)).toNat /
      256 * 256 + (lowByte addr).toNat = addr.toNat % 0x4000 := by
    rw [VideoAddress.toNat_ofNat, toNat_highByte, toNat_lowByte]
    omega
  unfold setAddress writeRegister Scroll.writeAddress
  simp only [Bool.false_eq_true, if_false, if_true, hhalves]

theorem toNat_setAddress (clear : ppu.scroll.second = false) {addr : UInt16}
    (fits : addr.toNat < 0x4000) : (ppu.setAddress addr).scroll.v.toNat = addr.toNat := by
  rw [setAddress_eq clear]
  show (VideoAddress.ofNat (addr.toNat % 0x4000)).toNat = addr.toNat
  rw [VideoAddress.toNat_ofNat]
  omega

/-- An access moves the address on. -/
theorem toNat_advance (here : ppu.scroll.v.toNat = addr) (below : addr < 0x3F00) :
    (ppu.scroll.v.advance ppu.control.step).toNat = addr + ppu.control.step := by
  have hstep := ppu.control.step_le
  unfold VideoAddress.advance
  rw [VideoAddress.toNat_ofNat, here, Nat.mod_eq_of_lt (by omega)]

/-! ## Writes -/

/-- Writes bytes to the data port. -/
def writePort (ppu : Ppu) : List UInt8 → Ppu
  | [] => ppu
  | value :: data => (ppu.writeRegister .data value).writePort data

/-- A write stores its byte at the address and moves on. -/
theorem writeRegister_data (here : ppu.scroll.v.toNat = addr) (below : addr < 0x3F00)
    (ram : addr < 0x2000 → ppu.chrWritable = true) (value : UInt8) :
    ppu.writeRegister .data value =
      { ppu with
        latch := value
        memory := ppu.memory.write addr value
        scroll := { ppu.scroll with v := ppu.scroll.v.advance ppu.control.step } } := by
  have hwritable : (ppu.chrWritable || decide (0x2000 ≤ addr)) = true := by
    rcases Nat.lt_or_ge addr 0x2000 with pattern | name
    · rw [ram pattern, Bool.true_or]
    · rw [decide_eq_true name, Bool.or_true]
  unfold writeRegister writeData
  dsimp only
  rw [here, Nat.mod_eq_of_lt (by omega), if_pos hwritable]
  rfl

/-- Writes store their bytes at the addresses that they move over; besides, they only change the
    address and the latch. -/
theorem writePort_eq (here : ppu.scroll.v.toNat = addr) {data : List UInt8}
    (below : ∀ a ∈ List.range' addr data.length ppu.control.step, a < 0x3F00)
    (ram : ∀ a ∈ List.range' addr data.length ppu.control.step,
      a < 0x2000 → ppu.chrWritable = true) :
    ∃ latch v, ppu.writePort data =
      { ppu with
        latch
        memory := ppu.memory.writeEachAt (List.range' addr data.length ppu.control.step) data
        scroll := { ppu.scroll with v } } := by
  induction data generalizing ppu addr with
  | nil => exact ⟨ppu.latch, ppu.scroll.v, rfl⟩
  | cons value data ih =>
    obtain ⟨hbelow, hbelows⟩ := List.forall_mem_cons.mp below
    obtain ⟨hram, hrams⟩ := List.forall_mem_cons.mp ram
    let next : Ppu :=
      { ppu with
        latch := value
        memory := ppu.memory.write addr value
        scroll := { ppu.scroll with v := ppu.scroll.v.advance ppu.control.step } }
    have hmoved : next.scroll.v.toNat = addr + ppu.control.step := toNat_advance here hbelow
    obtain ⟨latch, v, hrest⟩ := ih hmoved hbelows hrams
    rw [writePort, writeRegister_data here hbelow hram value]
    exact ⟨latch, v, hrest⟩

/-! ## Reads -/

/-- Reads the data port a number of times; gives the bytes in their order. -/
def readPort (ppu : Ppu) : (count : Nat) → List UInt8 × Ppu
  | 0 => ([], ppu)
  | count + 1 =>
    let (value, next) := ppu.readRegister .data
    let (values, last) := next.readPort count
    (value :: values, last)

/-- A read gives the byte that was kept, keeps the one at the address and moves on. -/
theorem readRegister_data (here : ppu.scroll.v.toNat = addr) (below : addr < 0x3F00) :
    ppu.readRegister .data =
      (ppu.readBuffer,
        { ppu with
          readBuffer := ppu.memory.read addr
          scroll := { ppu.scroll with v := ppu.scroll.v.advance ppu.control.step } }) := by
  unfold readRegister readData
  dsimp only
  rw [here, Nat.mod_eq_of_lt (by omega), if_neg (by omega)]
  rfl

/-- Reads give the byte that was kept and then the bytes at the addresses that they move over, but
    for the last one, which is kept; besides, they only change the address. -/
theorem readPort_eq (here : ppu.scroll.v.toNat = addr) {count : Nat}
    (below : ∀ a ∈ List.range' addr (count + 1) ppu.control.step, a < 0x3F00) :
    ∃ readBuffer v, ppu.readPort (count + 1) =
      (ppu.readBuffer :: (List.range' addr count ppu.control.step).map ppu.memory.read,
        { ppu with readBuffer, scroll := { ppu.scroll with v } }) := by
  induction count generalizing ppu addr with
  | zero =>
    have hbelow := below addr (List.mem_singleton.mpr rfl)
    rw [readPort, readRegister_data here hbelow]
    exact ⟨_, _, rfl⟩
  | succ count ih =>
    obtain ⟨hbelow, hbelows⟩ := List.forall_mem_cons.mp below
    let next : Ppu :=
      { ppu with
        readBuffer := ppu.memory.read addr
        scroll := { ppu.scroll with v := ppu.scroll.v.advance ppu.control.step } }
    have hmoved : next.scroll.v.toNat = addr + ppu.control.step := toNat_advance here hbelow
    obtain ⟨readBuffer, v, hrest⟩ := ih hmoved hbelows
    rw [readPort, readRegister_data here hbelow]
    dsimp only
    rw [hrest]
    exact ⟨readBuffer, v, rfl⟩

/-! ## There and back -/

/-- Setting an address of 14 bits and writing stores the bytes from there on. -/
theorem writePort_setAddress (clear : ppu.scroll.second = false) {addr : UInt16}
    (fits : addr.toNat < 0x4000) {data : List UInt8}
    (below : ∀ a ∈ List.range' addr.toNat data.length ppu.control.step, a < 0x3F00)
    (ram : ∀ a ∈ List.range' addr.toNat data.length ppu.control.step,
      a < 0x2000 → ppu.chrWritable = true) :
    ∃ latch t v, (ppu.setAddress addr).writePort data =
      { ppu with
        latch
        memory := ppu.memory.writeEachAt (List.range' addr.toNat data.length ppu.control.step) data
        scroll := { ppu.scroll with t, v } } := by
  obtain ⟨latch, v, hwritten⟩ := writePort_eq (toNat_setAddress clear fits) below ram
  rw [setAddress_eq clear] at hwritten ⊢
  exact ⟨latch, _, v, hwritten⟩

/-- Setting an address of 14 bits and reading gives the bytes from there on after a stale one. -/
theorem readPort_setAddress (clear : ppu.scroll.second = false) {addr : UInt16}
    (fits : addr.toNat < 0x4000) {count : Nat}
    (below : ∀ a ∈ List.range' addr.toNat (count + 1) ppu.control.step, a < 0x3F00) :
    ∃ latch readBuffer t v, (ppu.setAddress addr).readPort (count + 1) =
      (ppu.readBuffer :: (List.range' addr.toNat count ppu.control.step).map ppu.memory.read,
        { ppu with latch, readBuffer, scroll := { ppu.scroll with t, v } }) := by
  obtain ⟨readBuffer, v, hread⟩ := readPort_eq (toNat_setAddress clear fits) below
  rw [setAddress_eq clear] at hread ⊢
  exact ⟨_, readBuffer, _, v, hread⟩

/-- A transfer to some addresses and back leaves the bytes there and reads what is then there. -/
theorem transfer_eq (clear : ppu.scroll.second = false) {addr : UInt16}
    (fits : addr.toNat < 0x4000) {data : List UInt8}
    (below : ∀ a ∈ List.range' addr.toNat (data.length + 1) ppu.control.step, a < 0x3F00)
    (ram : ∀ a ∈ List.range' addr.toNat data.length ppu.control.step,
      a < 0x2000 → ppu.chrWritable = true) :
    let written := (ppu.setAddress addr).writePort data
    let result := (written.setAddress addr).readPort (data.length + 1)
    let addrs := List.range' addr.toNat data.length ppu.control.step
    let memory := ppu.memory.writeEachAt addrs data
    result.1 = ppu.readBuffer :: addrs.map memory.read ∧
      result.2.memory = memory ∧ result.2.oam = ppu.oam := by
  intro written result addrs memory
  have hshorter : ∀ a ∈ addrs, a < 0x3F00 := by
    intro a ha
    refine below a ?_
    rw [List.range'_concat]
    exact List.mem_append_left _ ha
  obtain ⟨latch, t, v, hwritten⟩ : ∃ latch t v, written =
      { ppu with latch, memory, scroll := { ppu.scroll with t, v } } :=
    writePort_setAddress clear fits hshorter ram
  obtain ⟨hmemory, hcontrol, hbuffer, hoam, hclear⟩ :
      written.memory = memory ∧ written.control = ppu.control ∧
        written.readBuffer = ppu.readBuffer ∧ written.oam = ppu.oam ∧
        written.scroll.second = false := by
    rw [hwritten]
    exact ⟨rfl, rfl, rfl, rfl, clear⟩
  obtain ⟨latch, readBuffer, t, v, hresult⟩ :=
    readPort_setAddress hclear fits (by rw [hcontrol]; exact below)
  have hvalues : result.1 = written.readBuffer ::
      (List.range' addr.toNat data.length written.control.step).map written.memory.read :=
    congrArg Prod.fst hresult
  have hlast : result.2.memory = written.memory ∧ result.2.oam = written.oam := by
    rw [show result = _ from hresult]
    exact ⟨rfl, rfl⟩
  rw [hcontrol, hbuffer, hmemory] at hvalues
  rw [hmemory, hoam] at hlast
  exact ⟨hvalues, hlast⟩

/-- What a transfer stores from an address on, one byte or a row apart, is read back from there
    after one stale byte, if the addresses stay below the palette, have a byte each and are none of
    CHR ROM. No other byte changes. -/
theorem reads_back_transfer (reachable : ppu.Reachable) (addr : UInt16) (data : List UInt8)
    (below : ∀ k ≤ data.length, addr.toNat + k * ppu.control.step < 0x3F00)
    (distinct : ∀ k < data.length, ∀ j < k, ¬SameCell ppu.mirroring
      (addr.toNat + j * ppu.control.step) (addr.toNat + k * ppu.control.step))
    (ram : ∀ k < data.length, addr.toNat + k * ppu.control.step < 0x2000 →
      ppu.chrWritable = true) :
    let start := (ppu.readRegister .status).2
    let written := (start.setAddress addr).writePort data
    let result := (written.setAddress addr).readPort (data.length + 1)
    result.1 = ppu.readBuffer :: data ∧
      (∀ cell, (∀ k < data.length, ppu.memory.cell (addr.toNat + k * ppu.control.step) ≠ cell) →
        result.2.memory.byteAt cell = ppu.memory.byteAt cell) ∧
      ppu.memory.SameWiring result.2.memory ∧ result.2.oam = ppu.oam := by
  intro start written result
  have wired := wired_of_reachable reachable
  have fits : addr.toNat < 0x4000 := by
    have hfirst := below 0 (Nat.zero_le _)
    omega
  let addrs := List.range' addr.toNat data.length ppu.control.step
  have hread : ∀ a ∈ List.range' addr.toNat (data.length + 1) ppu.control.step, a < 0x3F00 :=
    forall_range' fun k hk => below k (Nat.le_of_lt_succ hk)
  have hbelow : ∀ a ∈ addrs, a < 0x3F00 := forall_range' fun k hk => below k (Nat.le_of_lt hk)
  have hdistinct : addrs.Pairwise fun a b => ppu.memory.cell a ≠ ppu.memory.cell b := by
    refine pairwise_range' fun k hk j less same => ?_
    exact distinct k hk j less ((cell_eq_iff wired _ _).mp same)
  have clear : start.scroll.second = false := rfl
  obtain ⟨hvalues, hmemory, hoam⟩ : result.1 = ppu.readBuffer ::
        addrs.map (ppu.memory.writeEachAt addrs data).read ∧
      result.2.memory = ppu.memory.writeEachAt addrs data ∧ result.2.oam = ppu.oam :=
    transfer_eq clear fits hread (forall_range' ram)
  rw [hvalues, hmemory, hoam, read_writeEachAt List.length_range' hbelow hdistinct]
  refine ⟨rfl, ?_, sameWiring_writeEachAt ppu.memory addrs data, rfl⟩
  intro cell untouched
  exact byteAt_writeEachAt (forall_range' untouched) data

/-- A new PPU that moves down a row with each access to $2007. -/
def rowwise : Ppu := ({} : Ppu).writeRegister .control 0x04

/-- Two bytes, one in the last row of the pattern tables and one in the first row of the
    nametables, come back after the stale byte, and the byte beside the second is as before. -/
theorem reads_back_transfer_of_rowwise :
    let data : List UInt8 := [0x11, 0x22]
    let start := (rowwise.readRegister .status).2
    let written := (start.setAddress 0x1FE0).writePort data
    let result := (written.setAddress 0x1FE0).readPort (data.length + 1)
    rowwise.Reachable ∧ rowwise.control.step = 32 ∧ result.1 = 0x00 :: data ∧
      result.2.memory.byteAt (.name 1) = rowwise.memory.byteAt (.name 1) := by
  intro data
  dsimp only
  have reachable : rowwise.Reachable := Reachable.next .refl (.step (.writeRegister _ _ _))
  have hstep : rowwise.control.step = 32 := rfl
  have hmirroring : rowwise.mirroring = .horizontal := rfl
  have hbuffer : rowwise.readBuffer = 0x00 := rfl
  have hmemory : rowwise.memory = {} := rfl
  obtain ⟨values, unchanged, -⟩ := reads_back_transfer reachable 0x1FE0 data
    (by rw [hstep]; decide) (by rw [hstep, hmirroring]; decide) (fun _ _ _ => rfl)
  rw [hbuffer] at values
  have untouched : ∀ k < data.length,
      rowwise.memory.cell ((0x1FE0 : UInt16).toNat + k * rowwise.control.step) ≠ .name 1 := by
    rw [hstep, hmemory]
    decide
  exact ⟨reachable, hstep, values, unchanged (.name 1) untouched⟩

end Ppu
end Nes
