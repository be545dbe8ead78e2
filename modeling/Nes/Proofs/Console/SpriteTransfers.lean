/-
  Sprite DMA copies what the CPU reads.

  A write of a page's number to $4014 is 256 reads and one block. The reads have no effect, because
  no register answers in work RAM, save RAM or PRG space (`read_quiet`); each finds its byte in
  memory or, where nothing answers, the byte that the read before it left on the data lines
  (`dataLines`). The block goes round sprite memory once, from the sprite address on, so every cell
  is written exactly once (`oamRead_writeFrom`). That is all that changes (`write_spriteDma`), and
  a transfer right after another one finds the same page (`dataLines_congr`).

  `Moment` are the states of a console that is on, at any time but in between such a write and the
  wait for it. A board that a host adds can map a window over $4014, which is then not a register
  any more (`write_covered`); a built-in board never does (`shown_of_builtin`).
-/
import Nes.Proofs.Console.CpuTime
import Nes.Proofs.Console.Memories
import Nes.Proofs.Console.RegisterSpace

namespace Nes

/-! ## A block in sprite memory -/

namespace Ppu

theorem oamRead_write (ppu : Ppu) (start value i : UInt8) :
    (ppu.oamWrite start value).oamRead i = if i = start then value else ppu.oamRead i := by
  unfold oamWrite oamRead
  dsimp only
  rw [Vector.getElem_set]
  simp only [UInt8.toNat_inj, eq_comm]

/-- A block changes nothing but sprite memory. -/
theorem oamWriteFrom_eq (ppu : Ppu) (start : UInt8) (data : List UInt8) :
    ppu.oamWriteFrom start data = { ppu with oam := (ppu.oamWriteFrom start data).oam } := by
  induction data generalizing ppu start with
  | nil => rfl
  | cons value rest ih => exact ih (ppu.oamWrite start value) (start + 1)

/-- A block that goes round at most once: a cell holds the byte of its distance from the start. -/
theorem oamRead_writeFrom (ppu : Ppu) (start : UInt8) {data : List UInt8}
    (once : data.length ≤ 256) (i : UInt8) :
    (ppu.oamWriteFrom start data).oamRead i =
      data[(i - start).toNat]?.getD (ppu.oamRead i) := by
  induction data generalizing ppu start with
  | nil => rfl
  | cons value rest ih =>
    rw [List.length_cons] at once
    have hrest := ih (ppu.oamWrite start value) (start + 1) (by omega)
    have hwrite : ppu.oamWriteFrom start (value :: rest) =
        (ppu.oamWrite start value).oamWriteFrom (start + 1) rest := rfl
    have hi := i.toNat_lt
    have hstart := start.toNat_lt
    have hdistance : (i - start).toNat = (256 - start.toNat + i.toNat) % 256 := UInt8.toNat_sub ..
    have hnext : (i - (start + 1)).toNat =
        (256 - (start.toNat + 1) % 256 + i.toNat) % 256 := UInt8.toNat_sub ..
    rw [hwrite, hrest, oamRead_write]
    by_cases hfirst : i = start
    · -- the others come back to the start only after 256 bytes
      have hfar : rest.length ≤ (i - (start + 1)).toNat := by
        subst hfirst
        omega
      have hhere : (i - start).toNat = 0 := by
        subst hfirst
        omega
      rw [List.getElem?_eq_none hfar, hhere, if_pos hfirst]
      rfl
    · have hne : i.toNat ≠ start.toNat := fun h => hfirst (UInt8.toNat_inj.mp h)
      have hbehind : (i - start).toNat = (i - (start + 1)).toNat + 1 := by omega
      rw [if_neg hfirst, hbehind, List.getElem?_cons_succ]

end Ppu

namespace System

/-! ## The bytes of a page -/

section
variable {system : System}

/-- The byte that the CPU reads at an address with another one on the data lines. -/
def byteAt (system : System) (lines : UInt8) (addr : UInt16) : UInt8 :=
  ((system.mapIo (·.drive lines)).read addr).1

/-- The byte on the data lines when the CPU has read a number of bytes from an address on. -/
def dataLines (system : System) (addr : UInt16) (lines : UInt8) : (count : Nat) → UInt8
  | 0 => lines
  | count + 1 => system.byteAt (dataLines system addr lines count) (addr + UInt16.ofNat count)

/-- A page of work RAM, save RAM or PRG space. -/
def memoryPage (page : UInt8) : Bool := page < 0x20 || 0x60 ≤ page

theorem quiet_inPage {page : UInt8} (memory : memoryPage page = true) {i : Nat} (hi : i < 256) :
    quiet (page.toUInt16 * 256 + UInt16.ofNat i) = true := by
  have hpage := page.toNat_lt
  have haddr : (page.toUInt16 * 256 + UInt16.ofNat i).toNat = page.toNat * 256 + i := by
    rw [UInt16.toNat_add, UInt16.toNat_mul, UInt8.toNat_toUInt16, UInt16.toNat_ofNat']
    simp
    omega
  simp only [memoryPage, quiet, Bool.or_eq_true, decide_eq_true_eq, UInt8.lt_iff_toNat_lt,
    UInt8.le_iff_toNat_le, UInt16.lt_iff_toNat_lt, UInt16.le_iff_toNat_le, haddr] at memory ⊢
  simp at memory ⊢
  omega

/-- Where memory answers, it does not matter what was on the data lines. -/
theorem byteAt_memory {addr : UInt16} {device : Device} {offset : Nat}
    (hresolve : system.hardware.map.resolve addr = (device, offset))
    (hmemory : device = .workRam ∨ device = .saveRam ∨
      device = .prg ∧ offset < system.cartridge.image.prg.size) (lines : UInt8) :
    system.byteAt lines addr = (system.read addr).1 := by
  have hlines : (system.mapIo (·.drive lines)).hardware.map.resolve addr = (device, offset) :=
    hresolve
  exact (peek_eq_read (system.mapIo (·.drive lines)) hlines hmemory).symm.trans
    (peek_eq_read system hresolve hmemory)

/-- Where nothing answers, the byte stays. -/
theorem byteAt_open {addr : UInt16} {device : Device} {offset : Nat}
    (hresolve : system.hardware.map.resolve addr = (device, offset))
    (hopen : device = .unmapped ∨ device = .prg ∧ system.cartridge.image.prg.size ≤ offset)
    (lines : UInt8) : system.byteAt lines addr = lines := by
  have hlines : (system.mapIo (·.drive lines)).hardware.map.resolve addr = (device, offset) :=
    hresolve
  unfold byteAt read access
  rw [hlines]
  obtain rfl | ⟨rfl, hbyte⟩ := hopen
  · rfl
  · have hprg : system.cartridge.prgByte? offset = none := Array.getElem?_eq_none hbyte
    show (system.cartridge.prgByte? offset).getD lines = lines
    rw [hprg]
    rfl

/-- Only the map and the memories matter for what is read there. -/
theorem byteAt_congr {a b : System} (ha : a.Orderly) (hmap : b.hardware.map = a.hardware.map)
    (hworkRam : b.hardware.workRam = a.hardware.workRam) (hcartridge : b.cartridge = a.cartridge)
    {addr : UInt16} (haddr : quiet addr = true) (lines : UInt8) :
    b.byteAt lines addr = a.byteAt lines addr := by
  obtain ⟨hppu, hio⟩ := device_quiet ha haddr
  have hb : (b.mapIo (·.drive lines)).hardware.map.resolve addr =
      a.hardware.map.resolve addr := congrArg (·.resolve addr) hmap
  have ha' : (a.mapIo (·.drive lines)).hardware.map.resolve addr =
      a.hardware.map.resolve addr := rfl
  show ((b.mapIo (·.drive lines)).access addr).1 = ((a.mapIo (·.drive lines)).access addr).1
  unfold access
  rw [hb, ha']
  generalize a.hardware.map.resolve addr = found at hppu hio ⊢
  obtain ⟨device, offset⟩ := found
  cases device with
  | ppu => exact absurd rfl hppu
  | io => exact absurd rfl hio
  | workRam => exact congrArg (Ram.read · offset) hworkRam
  | saveRam => exact congrArg (fun cartridge => cartridge.save.read offset) hcartridge
  | prg => exact congrArg (fun cartridge => (cartridge.prgByte? offset).getD lines) hcartridge
  | unmapped => rfl

theorem addr_succ (addr : UInt16) (count : Nat) :
    addr + 1 + UInt16.ofNat count = addr + UInt16.ofNat (count + 1) := by
  rw [UInt16.ofNat_add, UInt16.add_assoc, UInt16.add_comm 1]
  rfl

theorem dataLines_one (system : System) (addr : UInt16) (lines : UInt8) :
    system.dataLines addr lines 1 = system.byteAt lines addr :=
  congrArg (system.byteAt lines) (UInt16.add_zero addr)

theorem dataLines_succ (system : System) (addr : UInt16) (lines : UInt8) (count : Nat) :
    system.dataLines (addr + 1) (system.byteAt lines addr) count =
      system.dataLines addr lines (count + 1) := by
  induction count with
  | zero => exact (dataLines_one system addr lines).symm
  | succ count ih =>
    show system.byteAt _ _ = system.byteAt _ _
    rw [ih, addr_succ]

/-- The reads of a page, one after the other. -/
theorem readFrom_quiet (h : system.Orderly) {addr : UInt16} (lines : UInt8) (out : Bytes)
    {count : Nat} (hquiet : ∀ i < count, quiet (addr + UInt16.ofNat i) = true) :
    ((system.mapIo (·.drive lines)).readFrom addr out count).1.toList =
        out.toList ++ (List.range count).map (fun i => system.dataLines addr lines (i + 1)) ∧
      ((system.mapIo (·.drive lines)).readFrom addr out count).2 =
        system.mapIo (·.drive (system.dataLines addr lines count)) := by
  induction count generalizing addr lines out with
  | zero => exact ⟨(List.append_nil _).symm, rfl⟩
  | succ count ih =>
    have hfirst : quiet addr = true := by simpa using hquiet 0 (Nat.succ_pos count)
    have hread : (system.mapIo (·.drive lines)).read addr =
        (system.byteAt lines addr, system.mapIo (·.drive (system.byteAt lines addr))) :=
      Prod.ext rfl (@read_quiet (system.mapIo (·.drive lines)) h addr hfirst)
    obtain ⟨hbytes, hsystem⟩ := @ih (addr + 1) (system.byteAt lines addr)
      (out.push (system.byteAt lines addr)) fun i hi => by
        rw [addr_succ]
        exact hquiet (i + 1) (Nat.succ_lt_succ hi)
    unfold readFrom
    rw [hread]
    dsimp only
    rw [hbytes, hsystem, dataLines_succ, List.range_succ_eq_map]
    simp only [dataLines_succ, Array.toList_push, List.append_assoc, List.map_cons, List.map_map]
    rw [Nat.zero_add, dataLines_one]
    exact ⟨rfl, trivial⟩

/-- What is read from a page does not change unless the map or a memory does. -/
theorem dataLines_congr {a b : System} (ha : a.Orderly) (hmap : b.hardware.map = a.hardware.map)
    (hworkRam : b.hardware.workRam = a.hardware.workRam) (hcartridge : b.cartridge = a.cartridge)
    {addr : UInt16} {count : Nat} (hquiet : ∀ i < count, quiet (addr + UInt16.ofNat i) = true)
    (lines : UInt8) : b.dataLines addr lines count = a.dataLines addr lines count := by
  induction count with
  | zero => rfl
  | succ count ih =>
    have hbefore := ih fun i hi => hquiet i (Nat.lt_succ_of_lt hi)
    have hlast := hquiet count (Nat.lt_succ_self count)
    show b.byteAt _ _ = a.byteAt _ _
    rw [hbefore, byteAt_congr ha hmap hworkRam hcartridge hlast]

end

/-! ## One transfer -/

section
variable {system : System}

/-- The first address of a page. -/
def pageStart (page : UInt8) : UInt16 := page.toUInt16 * 256

/-- The sprite DMA register is seen at its address. -/
def ShowsSpriteDma (system : System) : Prop :=
  (system.hardware.map.resolve spriteDmaAddress).1 = .io

/-- The bytes that the CPU reads from a page, after it has written the page's number. -/
def pageBytes (system : System) (page : UInt8) : List UInt8 :=
  (List.range 256).map fun i => system.dataLines (pageStart page) page (i + 1)

/-- The system when a block has come into sprite memory, and the CPU has to wait for that. -/
def received (system : System) (bytes : List UInt8) (openBus : UInt8) : System :=
  (system.mapPpu fun ppu => ppu.oamWriteFrom ppu.oamAddress bytes).mapIo fun io =>
    { io with openBus, stall := io.stall + spriteDmaCycles }

theorem received_ppu (system : System) (bytes : List UInt8) (openBus : UInt8) :
    (system.received bytes openBus).hardware.ppu =
      system.hardware.ppu.oamWriteFrom system.hardware.ppu.oamAddress bytes := rfl

theorem received_takeStall (system : System) (bytes : List UInt8) (openBus : UInt8) :
    (system.received bytes openBus).takeStall.1 = system.stall + spriteDmaCycles := rfl

theorem takeStall_takeStall (system : System) : system.takeStall.2.takeStall.1 = 0 := rfl

/-- A block changes sprite memory, the data lines and the wait. -/
theorem received_eq (system : System) (bytes : List UInt8) (openBus : UInt8) :
    ∃ oam, system.received bytes openBus = { system with hardware := { system.hardware with
      ppu := { system.hardware.ppu with oam }
      io := { system.hardware.io with
        openBus, stall := system.stall + spriteDmaCycles } } } := by
  refine ⟨(system.hardware.ppu.oamWriteFrom system.hardware.ppu.oamAddress bytes).oam, ?_⟩
  rw [← Ppu.oamWriteFrom_eq]
  rfl

theorem write_spriteDma (h : system.Orderly) (shown : system.ShowsSpriteDma) {page : UInt8}
    (memory : memoryPage page = true) :
    system.write spriteDmaAddress page =
      system.received (system.pageBytes page) (system.dataLines (pageStart page) page 256) := by
  obtain ⟨hbytes, hsystem⟩ := @readFrom_quiet system h (pageStart page) page (Array.mkEmpty 256) 256
    fun i hi => quiet_inPage memory hi
  have hio : system.write spriteDmaAddress page =
      (system.mapIo (·.drive page)).spriteDma page := by
    have hresolve : (system.mapIo (·.drive page)).hardware.map.resolve spriteDmaAddress =
        (.io, (system.hardware.map.resolve spriteDmaAddress).2) := Prod.ext shown rfl
    unfold write
    rw [if_neg (by decide), hresolve]
    exact if_pos rfl
  rw [hio]
  unfold spriteDma
  unfold pageStart at hbytes hsystem
  generalize (system.mapIo (·.drive page)).readFrom (page.toUInt16 * 256) (Array.mkEmpty 256) 256 =
    result at hbytes hsystem ⊢
  obtain ⟨bytes, middle⟩ := result
  have hblock : bytes.toList = system.pageBytes page := hbytes
  cases hsystem
  unfold Ppu.oamWriteBlock
  dsimp only
  rw [hblock]
  rfl

/-- What a write of a page's number to $4014 does: all of sprite memory is what the CPU reads from
    the page, the CPU has to wait, and nothing else changes. -/
structure Transferred (before : System) (page : UInt8) (after : System) : Prop where
  oam : ∀ i < 256, after.hardware.ppu.oamRead (before.hardware.ppu.oamAddress + UInt8.ofNat i) =
    before.dataLines (pageStart page) page (i + 1)
  /-- It is the byte of the memory that answers. -/
  memory : ∀ i < 256, ∀ device offset,
    before.hardware.map.resolve (pageStart page + UInt16.ofNat i) = (device, offset) →
    device = .workRam ∨ device = .saveRam ∨
      device = .prg ∧ offset < before.cartridge.image.prg.size →
    after.hardware.ppu.oamRead (before.hardware.ppu.oamAddress + UInt8.ofNat i) =
      (before.read (pageStart page + UInt16.ofNat i)).1
  /-- Where nothing answers, it is the byte before it, and the page's number in the first place. -/
  floating : ∀ i < 256, ∀ device offset,
    before.hardware.map.resolve (pageStart page + UInt16.ofNat i) = (device, offset) →
    device = .unmapped ∨ device = .prg ∧ before.cartridge.image.prg.size ≤ offset →
    after.hardware.ppu.oamRead (before.hardware.ppu.oamAddress + UInt8.ofNat i) =
      before.dataLines (pageStart page) page i
  rest : ∃ oam openBus, after = { before with hardware := { before.hardware with
    ppu := { before.hardware.ppu with oam }
    io := { before.hardware.io with openBus, stall := 513 } } }
  waits : after.takeStall.1 = 513 ∧ after.takeStall.2.takeStall.1 = 0

theorem oamRead_pageBytes (system : System) (ppu : Ppu) (start page : UInt8) {i : Nat}
    (hi : i < 256) :
    (ppu.oamWriteFrom start (system.pageBytes page)).oamRead (start + UInt8.ofNat i) =
      system.dataLines (pageStart page) page (i + 1) := by
  have honce : (system.pageBytes page).length ≤ 256 := by
    unfold pageBytes
    rw [List.length_map, List.length_range]
  have hdistance : (start + UInt8.ofNat i - start).toNat = i := by
    rw [UInt8.add_comm, UInt8.add_sub_cancel, UInt8.toNat_ofNat', Nat.mod_eq_of_lt hi]
  rw [Ppu.oamRead_writeFrom ppu start honce, hdistance]
  unfold pageBytes
  rw [List.getElem?_map, List.getElem?_range hi]
  rfl

theorem transferred_write (h : system.Orderly) (shown : system.ShowsSpriteDma)
    (idle : system.stall = 0) {page : UInt8} (memory : memoryPage page = true) :
    Transferred system page (system.write spriteDmaAddress page) := by
  have hwrite := write_spriteDma h shown memory
  have hcell (i : Nat) (hi : i < 256) :
      (system.write spriteDmaAddress page).hardware.ppu.oamRead
          (system.hardware.ppu.oamAddress + UInt8.ofNat i) =
        system.dataLines (pageStart page) page (i + 1) := by
    rw [hwrite, received_ppu]
    exact oamRead_pageBytes system system.hardware.ppu _ page hi
  refine ⟨hcell, fun i hi device offset hresolve hmemory => ?memory,
    fun i hi device offset hresolve hopen => ?floating, ?rest, ?waits, takeStall_takeStall _⟩
  case memory => exact (hcell i hi).trans (byteAt_memory hresolve hmemory _)
  case floating => exact (hcell i hi).trans (byteAt_open hresolve hopen _)
  case rest =>
    obtain ⟨oam, hreceived⟩ := received_eq system (system.pageBytes page)
      (system.dataLines (pageStart page) page 256)
    rw [idle] at hreceived
    exact ⟨oam, _, hwrite.trans hreceived⟩
  case waits => rw [hwrite, received_takeStall, idle, spriteDmaCycles]

end

/-! ## Any number of transfers -/

section
variable {system : System}

/-- Points the PPU at a cell of sprite memory, as a write to $2003 does. -/
def aim (system : System) (start : UInt8) : System :=
  system.mapPpu (·.writeRegister .oamAddress start)

/-- A transfer of a page, to a sprite address. -/
structure Transfer where
  start : UInt8
  page : UInt8
deriving DecidableEq

/-- The system after a transfer, and the wait for it. -/
def transfer (system : System) (next : Transfer) : System :=
  ((system.aim next.start).write spriteDmaAddress next.page).takeStall.2

/-- The system after transfers, one after the other. -/
def transfers (system : System) (list : List Transfer) : System := list.foldl transfer system

/-- What transfers leave as it was: all but sprite memory and its address, what is on the data
    lines of the CPU, and the last byte that was written to a PPU register. -/
def Kept (before after : System) : Prop :=
  ∃ oam oamAddress latch openBus, after = { before with hardware := { before.hardware with
    ppu := { before.hardware.ppu with oam, oamAddress, latch }
    io := { before.hardware.io with openBus, stall := 0 } } }

theorem Kept.refl (idle : system.stall = 0) : Kept system system := by
  obtain ⟨⟨map, workRam, ppu, apu, ⟨pad1, pad2, stall, openBus⟩⟩, cartridge, journal⟩ := system
  cases idle
  exact ⟨ppu.oam, ppu.oamAddress, ppu.latch, openBus, rfl⟩

theorem Kept.trans {a b c : System} (h₁ : Kept a b) (h₂ : Kept b c) : Kept a c := by
  obtain ⟨_, _, _, _, rfl⟩ := h₁
  obtain ⟨oam, oamAddress, latch, openBus, rfl⟩ := h₂
  exact ⟨oam, oamAddress, latch, openBus, rfl⟩

theorem kept_transfer (h : system.Orderly) (shown : system.ShowsSpriteDma)
    (idle : system.stall = 0) {next : Transfer} (memory : memoryPage next.page = true) :
    Kept system (system.transfer next) := by
  obtain ⟨oam, openBus, hwrite⟩ :=
    (@transferred_write (system.aim next.start) h shown idle next.page memory).rest
  unfold transfer
  rw [hwrite]
  exact ⟨oam, next.start, next.start, openBus, rfl⟩

/-- However many transfers there are, each finds the pages as the first one does. -/
theorem kept_transfers (h : system.Orderly) (shown : system.ShowsSpriteDma)
    (idle : system.stall = 0) {list : List Transfer}
    (memory : ∀ next ∈ list, memoryPage next.page = true) :
    Kept system (system.transfers list) := by
  induction list generalizing system with
  | nil => exact .refl idle
  | cons next list ih =>
    obtain ⟨hnext, hlater⟩ := List.forall_mem_cons.mp memory
    have hfirst := kept_transfer h shown idle hnext
    obtain ⟨oam, oamAddress, latch, openBus, hsystem⟩ := id hfirst
    refine hfirst.trans (ih ?_ ?_ ?_ hlater)
    · rw [hsystem]
      exact h
    · rw [hsystem]
      exact shown
    · rw [hsystem]
      rfl

/-- After any number of transfers, sprite memory is the last page, rotated by the sprite address
    that it was sent to. -/
theorem oamRead_transfers (h : system.Orderly) (shown : system.ShowsSpriteDma)
    (idle : system.stall = 0) {earlier : List Transfer} {last : Transfer}
    (memory : ∀ next ∈ earlier ++ [last], memoryPage next.page = true) {i : Nat} (hi : i < 256) :
    (system.transfers (earlier ++ [last])).hardware.ppu.oamRead (last.start + UInt8.ofNat i) =
      system.dataLines (pageStart last.page) last.page (i + 1) := by
  obtain ⟨hearlier, hlast⟩ := List.forall_mem_append.mp memory
  have hpage := List.forall_mem_singleton.mp hlast
  obtain ⟨oam, oamAddress, latch, openBus, hbefore⟩ := kept_transfers h shown idle hearlier
  have hsplit : system.transfers (earlier ++ [last]) =
      (system.transfers earlier).transfer last := List.foldl_concat ..
  rw [hsplit, hbefore]
  -- the system that the last transfer finds, pointed at its first cell
  let aimed : System := aim { system with hardware := { system.hardware with
    ppu := { system.hardware.ppu with oam, oamAddress, latch }
    io := { system.hardware.io with openBus, stall := 0 } } } last.start
  have hcell := (@transferred_write aimed h shown rfl last.page hpage).oam i hi
  refine hcell.trans ?_
  exact @dataLines_congr system aimed h rfl rfl rfl (pageStart last.page) (i + 1)
    (fun j hj => quiet_inPage hpage (by omega)) last.page

end

/-! ## The states of a console that is on -/

/-- The states of a console that is on. Nothing is waited for in them: the cycles that a transfer
    takes are taken before the next instruction begins, and no instruction writes twice. -/
inductive Moment (registry : Registry) : System → Prop
  /-- A cartridge was switched on. -/
  | on {source : Source} {files : Files} {cartridge : Cartridge}
      (load : source.load files registry = .ok cartridge) (cpu : Cpu) :
      Moment registry (Console.switchedOn cpu cartridge).bus
  /-- Between two requests. -/
  | between (turns : List Turn) {cartridge : Cartridge}
      (plugged : (({ registry } : Console).after turns).cartridge = some cartridge) :
      Moment registry (.plugged (({ registry } : Console).after turns).hardware cartridge)
  /-- Whatever happens without a transfer. -/
  | goOn {a b : System} (h : Moment registry a) (run : Run a b) (still : b.stall = a.stall) :
      Moment registry b
  /-- The CPU has waited for what happened. -/
  | wait {a b : System} (h : Moment registry a) (run : Run a b) : Moment registry b.takeStall.2

section
variable {registry : Registry} {system : System}

theorem Moment.stall_eq (h : Moment registry system) : system.stall = 0 := by
  induction h with
  | on load cpu => exact (Console.onTime_switchedOn cpu _).stall_eq
  | between turns => exact (Console.onTime_after registry turns).stall_eq
  | goOn _ _ still ih => exact still.trans ih
  | wait => rfl

/-- An invariant of the system holds at every moment. -/
theorem Moment.holds {P : System → Prop} (inv : Invariant registry P)
    (h : Moment registry system) : P system := by
  induction h with
  | on load cpu => exact (Console.run_switchedOn cpu _).keeps inv.step (inv.powerOn load)
  | between turns plugged => exact (Console.holds_after inv turns).system _ plugged
  | goOn _ run _ ih => exact run.keeps inv.step ih
  | wait _ run ih => exact (run.trans (run_takeStall _)).keeps inv.step ih

/-- A built-in board leaves the register where it is. -/
theorem shown_of_builtin (wired : system.Wired)
    (builtin : system.cartridge.pristine.isBuiltin = true) : system.ShowsSpriteDma := by
  unfold ShowsSpriteDma
  rw [resolve_console (wired.banked builtin) (by decide)]
  rfl

end

/-- Any moment of a console that is on, and any page of work RAM, save RAM or PRG space. Unless a
    board that a host has added maps a window over $4014, a write of the page's number there copies
    the page into sprite memory, and after any number of transfers sprite memory is the last page,
    from the sprite address on that it was sent to. -/
theorem sprite_transfers_copy {registry : Registry} {system : System}
    (moment : Moment registry system) :
    (system.cartridge.pristine.isBuiltin = true → system.ShowsSpriteDma) ∧
    (system.ShowsSpriteDma →
      (∀ page, memoryPage page = true →
        Transferred system page (system.write spriteDmaAddress page)) ∧
      ∀ (earlier : List Transfer) (last : Transfer),
        (∀ next ∈ earlier ++ [last], memoryPage next.page = true) →
        Kept system (system.transfers (earlier ++ [last])) ∧
        ∀ i < 256, (system.transfers (earlier ++ [last])).hardware.ppu.oamRead
            (last.start + UInt8.ofNat i) =
          system.dataLines (pageStart last.page) last.page (i + 1)) := by
  have idle := moment.stall_eq
  have orderly : system.Orderly := moment.holds (invariant_orderly registry)
  refine ⟨shown_of_builtin (moment.holds (invariant_wired registry)), fun shown =>
    ⟨fun page memory => transferred_write orderly shown idle memory, fun earlier last memory => ?_⟩⟩
  exact ⟨kept_transfers orderly shown idle memory,
    fun i hi => oamRead_transfers orderly shown idle memory hi⟩

/-- A cartridge with a battery, and a byte at $0205: page 2 goes to sprite memory from $10 on, after
    a page of save RAM. -/
theorem sprite_transfers_copy_of_header :
    ∃ system : System, Moment {} system ∧ system.ShowsSpriteDma ∧
      Transferred system 2 (system.write spriteDmaAddress 2) ∧
      (system.transfers [⟨1, 0x60⟩, ⟨0x10, 2⟩]).hardware.ppu.oamRead 0x15 = 7 := by
  have hload : ∃ cartridge, Cartridge.load {} Console.batteryHeader none = .ok cartridge ∧
      cartridge.battery = true ∧ cartridge.pristine.isBuiltin = true := ⟨_, rfl, rfl, rfl⟩
  obtain ⟨cartridge, load, battery, builtin⟩ := hload
  obtain ⟨board, irq, plugged⟩ :=
    Console.plugged_of_load load battery (fun _ => .ok #[]) (0, 0)
  obtain ⟨start, hstart, hbuiltin⟩ : ∃ start : System, Moment {} start ∧
      start.cartridge.pristine.isBuiltin = true := ⟨_, .between _ plugged, builtin⟩
  have hmoment : Moment {} (start.write 0x0205 7) :=
    hstart.goOn (run_write start 0x0205 7) (stall_write start (by decide) 7)
  have hafter : (start.write 0x0205 7).cartridge.pristine.isBuiltin = true := by
    rw [(run_write start 0x0205 7).image_eq.2]
    exact hbuiltin
  have banked := (hstart.holds (invariant_wired {})).banked hbuiltin
  have banked' := (hmoment.holds (invariant_wired {})).banked hafter
  obtain ⟨hresolve, hread⟩ := @read_workRam _ _ banked' 0x0205 (by decide)
  rw [memories_write banked, read_stored_workRam, if_pos (by decide)] at hread
  -- what the write does is known by now
  generalize start.write 0x0205 7 = system at hmoment hafter hresolve hread
  obtain ⟨hshown, hcopy⟩ := sprite_transfers_copy hmoment
  obtain ⟨hone, hall⟩ := hcopy (hshown hafter)
  refine ⟨system, hmoment, hshown hafter, hone 2 (by decide), ?_⟩
  have hcell : (system.transfers [⟨1, 0x60⟩, ⟨0x10, 2⟩]).hardware.ppu.oamRead
      (0x10 + UInt8.ofNat 5) = system.dataLines (pageStart 2) 2 6 :=
    (hall [⟨1, 0x60⟩] ⟨0x10, 2⟩ (by decide)).2 5 (by decide)
  have hto : (0x15 : UInt8) = 0x10 + UInt8.ofNat 5 := by decide
  have hfrom : pageStart 2 + UInt16.ofNat 5 = 0x0205 := by decide
  rw [hto, hcell]
  show system.byteAt _ (pageStart 2 + UInt16.ofNat 5) = 7
  rw [hfrom, byteAt_memory hresolve (.inl rfl), hread]

/-- Under a window of the board, $4014 is no register: a write there does nothing. -/
theorem write_covered {system : System}
    (covered : (system.hardware.map.resolve spriteDmaAddress).1 = .prg) (page : UInt8) :
    system.write spriteDmaAddress page = system.mapIo (·.drive page) := by
  have hresolve : (system.mapIo (·.drive page)).hardware.map.resolve spriteDmaAddress =
      (.prg, (system.hardware.map.resolve spriteDmaAddress).2) := Prod.ext covered rfl
  unfold write
  rw [if_neg (by decide), hresolve]

/-- A board that a host adds: it maps a window over $4014 when it is switched on. -/
def coveringScript : Script := { mapper := 0, init := [{ command := .prg 0x4000 0x2000 0 }] }

/-- A cartridge with that board. -/
def coveringCartridge : Cartridge :=
  match Cartridge.load (({} : Registry).add 0 coveringScript) Console.batteryHeader none with
  | .ok cartridge => cartridge
  | .error _ => default

/-- The console with that cartridge, and a byte at $0200. -/
def coveredConsole : System := (Console.switchedOn {} coveringCartridge).bus.write 0x0200 7

/-- The CPU would read 7 from the first cell of page 2, but nothing comes into sprite memory, and
    there is nothing to wait for. -/
theorem spriteDma_hidden :
    Moment (({} : Registry).add 0 coveringScript) coveredConsole ∧ memoryPage 2 = true ∧
      (coveredConsole.read (pageStart 2)).1 = 7 ∧
      (coveredConsole.write spriteDmaAddress 2).hardware.ppu.oamRead
        coveredConsole.hardware.ppu.oamAddress = 0 ∧
      (coveredConsole.write spriteDmaAddress 2).takeStall.1 = 0 := by
  have load : (Source.image Console.batteryHeader).load (fun _ => .ok #[])
      (({} : Registry).add 0 coveringScript) = .ok coveringCartridge := rfl
  have hmoment : Moment (({} : Registry).add 0 coveringScript) coveredConsole :=
    (Moment.on load {}).goOn (run_write _ 0x0200 7) (stall_write _ (by decide) 7)
  have covered : (coveredConsole.hardware.map.resolve spriteDmaAddress).1 = .prg := by
    decide +kernel
  rw [write_covered covered]
  exact ⟨hmoment, by decide, by decide +kernel, by decide +kernel, hmoment.stall_eq⟩

end System
end Nes
