/-
  What the CPU reads back from work RAM and save RAM.

  The two memories change by nothing but the CPU's own writes into their windows:
  `memories_write` says what each write does to them, and `memories_happen` that nothing else
  that happens to the console does anything. A write to the board may map PRG banks anew, but
  `Banked` keeps the console's own windows where they are, so those of the memories never move
  and never overlap. Sprite DMA reads 256 bytes on its way and writes none.

  So a read gives the byte that was written last (`workRam_follow`, `save_follow`), and the count
  of writes to save RAM grows by one for each of them (`writes_follow`). Looking without effect
  gives the same byte as reading, wherever there is memory (`peek_eq_read`). A console with a
  built-in board is `Banked` at any moment (`invariant_wired`), so all of this holds there.
-/
import Nes.Proofs.Console.InstalledBanks
import Nes.Proofs.Console.StoredImage
import Nes.Proofs.MemoryMap

namespace Nes

open MemoryMap

namespace System

/-- Work RAM and save RAM. -/
def memories (system : System) : Ram 0x800 × SaveRam :=
  (system.hardware.workRam, system.cartridge.save)

/-! ## What leaves the memories alone -/

theorem memories_mapIo (system : System) (f : IoBlock → IoBlock) :
    (system.mapIo f).memories = system.memories := rfl

theorem memories_mapPpu (system : System) (f : Ppu → Ppu) :
    (system.mapPpu f).memories = system.memories := rfl

theorem memories_readIo (system : System) (addr : UInt16) :
    (system.readIo addr).2.memories = system.memories := by
  unfold readIo
  dsimp only
  split
  · rfl
  · split
    · rfl
    · split <;> rfl

theorem memories_read (system : System) (addr : UInt16) :
    (system.read addr).2.memories = system.memories := by
  have haccess : (system.access addr).2.memories = system.memories := by
    unfold access
    split
    · rfl
    · rfl
    · exact memories_readIo system addr
    · rfl
    · rfl
    · rfl
  exact haccess

theorem memories_readFrom (system : System) (addr : UInt16) (out : Bytes) (count : Nat) :
    (system.readFrom addr out count).2.memories = system.memories := by
  induction count generalizing system addr out with
  | zero => rfl
  | succ count ih => exact (ih _ _ _).trans (memories_read system addr)

theorem memories_spriteDma (system : System) (page : UInt8) :
    (system.spriteDma page).memories = system.memories := by
  unfold spriteDma
  have hread := memories_readFrom system (page.toUInt16 * 256) (Array.mkEmpty 256) 256
  -- the 256 reads stay closed from here on
  generalize system.readFrom (page.toUInt16 * 256) (Array.mkEmpty 256) 256 = result at hread ⊢
  obtain ⟨bytes, middle⟩ := result
  exact ((memories_mapIo _ _).trans (memories_mapPpu _ _)).trans hread

theorem memories_writeIo (system : System) (addr : UInt16) (data : UInt8) :
    (system.writeIo addr data).memories = system.memories := by
  unfold writeIo
  split
  · exact memories_spriteDma system data
  · split
    · rfl
    · rfl

/-! ## What writes do to them -/

/-- The memories after a byte was written to an address. -/
def stored (memories : Ram 0x800 × SaveRam) (addr : UInt16) (data : UInt8) :
    Ram 0x800 × SaveRam :=
  if addr.toNat < 0x2000 then (memories.1.write (addr.toNat % 0x800) data, memories.2)
  else if 0x6000 ≤ addr.toNat ∧ addr.toNat < 0x8000 then
    (memories.1, memories.2.write (addr.toNat - 0x6000) data)
  else memories

variable {image : Image} {system : System}

theorem memories_write (h : Banked image system) (addr : UInt16) (data : UInt8) :
    (system.write addr data).memories = stored system.memories addr data := by
  unfold write
  dsimp only
  by_cases hboard : prgSpace ≤ addr
  · have hspace : 0x8000 ≤ addr.toNat := UInt16.le_iff_toNat_le.mp hboard
    unfold stored
    rw [if_pos hboard, if_neg (by omega), if_neg (by omega)]
    rfl
  · have hbelow : addr < 0x8000 := UInt16.not_le.mp hboard
    have hspace : addr.toNat < 0x8000 := UInt16.lt_iff_toNat_lt.mp hbelow
    have hresolve : (system.mapIo (·.drive data)).hardware.map.resolve addr =
        console.resolve addr := resolve_console h hbelow
    rw [if_neg hboard, hresolve, MemoryMap.resolve_console]
    unfold stored
    by_cases hram : addr.toNat < 0x2000
    · rw [if_pos hram, if_pos hram]
      rfl
    rw [if_neg hram, if_neg hram]
    by_cases hppu : addr.toNat < 0x4000
    · rw [if_pos hppu, if_neg (by omega)]
      exact (memories_mapPpu _ _).trans (memories_mapIo _ _)
    rw [if_neg hppu]
    by_cases hio : addr.toNat < 0x4020
    · rw [if_pos hio, if_neg (by omega)]
      exact memories_writeIo _ addr data
    rw [if_neg hio]
    by_cases hopen : addr.toNat < 0x6000
    · rw [if_pos hopen, if_neg (by omega)]
      rfl
    rw [if_neg hopen, if_pos hspace, if_pos ⟨by omega, hspace⟩]
    rfl

theorem memories_happen (h : Banked image system) (event : Event) :
    (system.happen event).memories =
      match event with
      | .write addr data => stored system.memories addr data
      | _ => system.memories := by
  cases event with
  | read addr => exact memories_read system addr
  | write addr data => exact memories_write h addr data
  | preLine | render | hblank | vblank | reset => rfl

/-! ## The bytes written to a region -/

/-- The byte that an event writes to a region of the address space. -/
def Event.written? (region : UInt16 → Bool) : Event → Option UInt8
  | .write addr data => if region addr then some data else none
  | _ => none

/-- The bytes that a sequence of events writes to a region, the first one first. -/
def written (region : UInt16 → Bool) (events : List Event) : List UInt8 :=
  events.filterMap (·.written? region)

/-- The addresses that show the same byte of work RAM as `addr`. -/
def workRamCell (addr a : UInt16) : Bool :=
  a < 0x2000 && a.toNat % 0x800 == addr.toNat % 0x800

/-- The addresses of save RAM. -/
def saveWindow (a : UInt16) : Bool := 0x6000 ≤ a && a < 0x8000

theorem saveWindow_iff {a : UInt16} :
    saveWindow a = true ↔ 0x6000 ≤ a.toNat ∧ a.toNat < 0x8000 := by
  simp [saveWindow, UInt16.le_iff_toNat_le, UInt16.lt_iff_toNat_lt]

theorem written?_write (region : UInt16 → Bool) (addr : UInt16) (data initial : UInt8) :
    ((Event.write addr data).written? region).getD initial =
      if region addr then data else initial := by
  unfold Event.written?
  dsimp only
  split
  · rfl
  · rfl

theorem getLast?_written_cons (region : UInt16 → Bool) (event : Event) (events : List Event)
    (initial : UInt8) :
    (written region (event :: events)).getLast?.getD initial =
      (written region events).getLast?.getD ((event.written? region).getD initial) := by
  unfold written
  rw [List.filterMap_cons]
  cases event.written? region with
  | none => rfl
  | some data =>
    rw [List.getLast?_cons]
    rfl

theorem length_written_cons (region : UInt16 → Bool) (event : Event) (events : List Event) :
    (written region (event :: events)).length =
      (event.written? region).toList.length + (written region events).length := by
  unfold written
  rw [List.filterMap_cons]
  cases event.written? region with
  | none => simp
  | some data => simp [Nat.add_comm]

/-! ## After a write -/

theorem read_stored_workRam (memories : Ram 0x800 × SaveRam) (a : UInt16) (data : UInt8)
    (addr : UInt16) :
    (stored memories a data).1.read (addr.toNat % 0x800) =
      if workRamCell addr a then data else memories.1.read (addr.toNat % 0x800) := by
  have hcell : workRamCell addr a = true ↔
      a.toNat < 0x2000 ∧ a.toNat % 0x800 = addr.toNat % 0x800 := by
    simp [workRamCell, UInt16.lt_iff_toNat_lt]
  unfold stored
  rw [apply_ite Prod.fst, apply_ite Prod.fst, ite_self]
  by_cases hram : a.toNat < 0x2000
  · rw [if_pos hram]
    dsimp only
    rw [Ram.read_write (by decide), Nat.mod_mod, Nat.mod_mod]
    simp only [hcell, hram, true_and]
  · rw [if_neg hram, if_neg fun h => hram (hcell.mp h).1]

theorem read_stored_save (memories : Ram 0x800 × SaveRam) (a : UInt16) (data : UInt8)
    {addr : UInt16} (haddr : saveWindow addr = true) :
    (stored memories a data).2.read (addr.toNat - 0x6000) =
      if a = addr then data else memories.2.read (addr.toNat - 0x6000) := by
  have hwindow := saveWindow_iff.mp haddr
  unfold stored
  by_cases hsave : 0x6000 ≤ a.toNat ∧ a.toNat < 0x8000
  · have hcell : (a.toNat - 0x6000) % saveSize = (addr.toNat - 0x6000) % saveSize ↔ a = addr := by
      unfold saveSize
      rw [← UInt16.toNat_inj]
      omega
    rw [if_neg (by omega), if_pos hsave]
    unfold SaveRam.write SaveRam.read
    dsimp only
    rw [Ram.read_write (by decide)]
    simp only [hcell]
  · have hne : a ≠ addr := by
      rintro rfl
      exact hsave hwindow
    rw [if_neg hsave, if_neg hne, apply_ite Prod.snd, ite_self]

theorem writes_stored (memories : Ram 0x800 × SaveRam) (a : UInt16) (data : UInt8) :
    (stored memories a data).2.writes =
      if saveWindow a then memories.2.writes + 1 else memories.2.writes := by
  unfold stored
  by_cases hsave : 0x6000 ≤ a.toNat ∧ a.toNat < 0x8000
  · rw [if_neg (by omega), if_pos hsave, if_pos (saveWindow_iff.mpr hsave)]
    rfl
  · rw [if_neg hsave, if_neg fun h => hsave (saveWindow_iff.mp h), apply_ite Prod.snd, ite_self]

/-! ## After an event -/

theorem workRam_happen (h : Banked image system) (event : Event) (addr : UInt16) :
    (system.happen event).memories.1.read (addr.toNat % 0x800) =
      (event.written? (workRamCell addr)).getD
        (system.memories.1.read (addr.toNat % 0x800)) := by
  rw [memories_happen h event]
  cases event with
  | write a data => exact (read_stored_workRam _ a data addr).trans (written?_write _ a data _).symm
  | read | preLine | render | hblank | vblank | reset => rfl

theorem save_happen (h : Banked image system) (event : Event) {addr : UInt16}
    (haddr : saveWindow addr = true) :
    (system.happen event).memories.2.read (addr.toNat - 0x6000) =
      (event.written? (· == addr)).getD (system.memories.2.read (addr.toNat - 0x6000)) := by
  rw [memories_happen h event]
  cases event with
  | write a data =>
    refine (read_stored_save _ a data haddr).trans ?_
    rw [written?_write]
    simp only [beq_iff_eq]
  | read | preLine | render | hblank | vblank | reset => exact (Option.getD_none).symm

theorem writes_happen (h : Banked image system) (event : Event) :
    (system.happen event).memories.2.writes = system.memories.2.writes +
      UInt32.ofNat (event.written? saveWindow).toList.length := by
  rw [memories_happen h event]
  cases event with
  | write a data =>
    refine (writes_stored _ a data).trans ?_
    unfold Event.written?
    dsimp only
    split
    · rfl
    · exact (UInt32.add_zero _).symm
  | read | preLine | render | hblank | vblank | reset => exact (UInt32.add_zero _).symm

/-! ## After a sequence of events -/

/-- What is seen after a sequence of events is the byte written last, if each single event shows
    the byte that it writes. -/
theorem getLast?_written (sized : image.Sized) {region : UInt16 → Bool} (look : System → UInt8)
    (single : ∀ {system : System}, Banked image system → ∀ event,
      look (system.happen event) = (event.written? region).getD (look system))
    (h : Banked image system) (events : List Event) :
    look (system.follow events) = (written region events).getLast?.getD (look system) := by
  induction events generalizing system with
  | nil => rfl
  | cons event events ih =>
    have hnext := banked_run sized (run_happen system event) h
    rw [getLast?_written_cons, ← single h event]
    exact ih hnext

theorem workRam_follow (sized : image.Sized) (h : Banked image system) (events : List Event)
    (addr : UInt16) :
    (system.follow events).memories.1.read (addr.toNat % 0x800) =
      (written (workRamCell addr) events).getLast?.getD
        (system.memories.1.read (addr.toNat % 0x800)) :=
  getLast?_written sized (fun system => system.memories.1.read (addr.toNat % 0x800))
    (fun h event => workRam_happen h event addr) h events

theorem save_follow (sized : image.Sized) (h : Banked image system) (events : List Event)
    {addr : UInt16} (haddr : saveWindow addr = true) :
    (system.follow events).memories.2.read (addr.toNat - 0x6000) =
      (written (· == addr) events).getLast?.getD
        (system.memories.2.read (addr.toNat - 0x6000)) :=
  getLast?_written sized (fun system => system.memories.2.read (addr.toNat - 0x6000))
    (fun h event => save_happen h event haddr) h events

theorem writes_follow (sized : image.Sized) (h : Banked image system) (events : List Event) :
    (system.follow events).memories.2.writes =
      system.memories.2.writes + UInt32.ofNat (written saveWindow events).length := by
  induction events generalizing system with
  | nil => exact (UInt32.add_zero _).symm
  | cons event events ih =>
    have hnext := ih (banked_run sized (run_happen system event) h)
    rw [length_written_cons, UInt32.ofNat_add, ← UInt32.add_assoc, ← writes_happen h event]
    exact hnext

/-! ## Looking and reading -/

/-- Where there is memory, looking gives what the CPU would read. -/
theorem peek_eq_read (system : System) {addr : UInt16} {device : Device} {offset : Nat}
    (hresolve : system.hardware.map.resolve addr = (device, offset))
    (hmemory : device = .workRam ∨ device = .saveRam ∨
      device = .prg ∧ offset < system.cartridge.image.prg.size) :
    system.peek addr = (system.read addr).1 := by
  unfold peek peekMemory read access
  rw [hresolve]
  obtain rfl | rfl | ⟨rfl, hbyte⟩ := hmemory
  · rfl
  · rfl
  · have hprg : system.cartridge.prgByte? offset = some system.cartridge.image.prg[offset] :=
      Array.getElem?_eq_getElem hbyte
    dsimp only
    rw [hprg]
    rfl

theorem read_workRam (h : Banked image system) {addr : UInt16} (haddr : addr < 0x2000) :
    system.hardware.map.resolve addr = (.workRam, addr.toNat % 0x800) ∧
      (system.read addr).1 = system.memories.1.read (addr.toNat % 0x800) := by
  have hlt : addr.toNat < 0x2000 := UInt16.lt_iff_toNat_lt.mp haddr
  have hbelow : addr < 0x8000 := UInt16.lt_iff_toNat_lt.mpr (Nat.lt_trans hlt (by decide))
  have hresolve : system.hardware.map.resolve addr = (.workRam, addr.toNat % 0x800) := by
    rw [resolve_console h hbelow, MemoryMap.resolve_console, if_pos hlt]
  refine ⟨hresolve, ?_⟩
  unfold read access
  rw [hresolve]
  rfl

theorem read_save (h : Banked image system) {addr : UInt16} (haddr : saveWindow addr = true) :
    system.hardware.map.resolve addr = (.saveRam, addr.toNat - 0x6000) ∧
      (system.read addr).1 = system.memories.2.read (addr.toNat - 0x6000) := by
  have hwindow := saveWindow_iff.mp haddr
  have hbelow : addr < 0x8000 := UInt16.lt_iff_toNat_lt.mpr hwindow.2
  have hresolve : system.hardware.map.resolve addr = (.saveRam, addr.toNat - 0x6000) := by
    rw [resolve_console h hbelow, MemoryMap.resolve_console, if_neg (by omega), if_neg (by omega),
      if_neg (by omega), if_neg (by omega), if_pos hwindow.2]
  refine ⟨hresolve, ?_⟩
  unfold read access
  rw [hresolve]
  rfl

/-- At the registers, and where nothing is, looking gives zero. -/
theorem peek_register (h : Banked image system) {addr : UInt16} (hfrom : 0x2000 ≤ addr)
    (hto : addr < 0x6000) : system.peek addr = 0 := by
  have hle : 0x2000 ≤ addr.toNat := UInt16.le_iff_toNat_le.mp hfrom
  have hlt : addr.toNat < 0x6000 := UInt16.lt_iff_toNat_lt.mp hto
  have hbelow : addr < 0x8000 := UInt16.lt_iff_toNat_lt.mpr (Nat.lt_trans hlt (by decide))
  unfold peek peekMemory
  rw [resolve_console h hbelow, MemoryMap.resolve_console, if_neg (by omega)]
  by_cases hppu : addr.toNat < 0x4000
  · rw [if_pos hppu]
  by_cases hio : addr.toNat < 0x4020
  · rw [if_neg hppu, if_pos hio]
  · rw [if_neg hppu, if_neg hio, if_pos hlt]

/-- The byte that the CPU reads from PRG space can be looked at, if the ROM reaches that far. -/
theorem peek_prg (h : Banked image system) {addr : UInt16} (haddr : 0x8000 ≤ addr) :
    ∃ offset, system.hardware.map.resolve addr = (.prg, offset) ∧
      (offset < system.cartridge.image.prg.size → system.peek addr = (system.read addr).1) := by
  have hresolve := resolve_prg h haddr
  exact ⟨_, hresolve, fun inside => peek_eq_read system hresolve (.inr (.inr ⟨rfl, inside⟩))⟩

/-! ## Cartridges with a built-in board -/

/-- The sections have their declared sizes, and a built-in board is in step with what it shows. -/
structure Wired (system : System) : Prop where
  sized : system.cartridge.image.Sized
  banked : system.cartridge.pristine.isBuiltin = true → Banked system.cartridge.image system

theorem wired_step {a b : System} (step : Step a b) (h : Wired a) : Wired b := by
  obtain ⟨himage, hpristine⟩ := step.image_eq
  refine ⟨himage ▸ h.sized, fun builtin => ?_⟩
  rw [himage]
  exact banked_step h.sized step (h.banked (hpristine ▸ builtin))

/-- Neither the board's notes nor the content of save RAM matter. -/
theorem wired_save (h : Wired system) (save : SaveRam) :
    Wired (plugged system.hardware { system.cartridge with save }) := by
  refine ⟨h.sized, fun builtin => ?_⟩
  obtain ⟨image_eq, pristine, writable, installed⟩ := h.banked builtin
  exact ⟨image_eq, pristine, writable,
    installed.builtin, installed.windows, installed.patterns⟩

theorem wired_load {registry : Registry} {bytes : Bytes} {id : Option UInt16}
    {cartridge : Cartridge} (load : Cartridge.load registry bytes id = .ok cartridge) :
    Wired ((plugged {} cartridge).initBoard .power) := by
  unfold Cartridge.load at load
  obtain ⟨image, hparse, load⟩ := ok_of_bind load
  obtain ⟨board, _, load⟩ := ok_of_bind load
  cases load
  have sized := Image.sized_of_parse hparse
  exact ⟨sized, fun builtin => banked_powerOn sized builtin⟩

theorem invariant_wired (registry : Registry) : Invariant registry Wired where
  powerOn := by
    intro source files cartridge load
    unfold Source.load at load
    split at load
    · split at load
      · exact wired_load load
      · cases load
    · exact wired_load load
    · exact wired_load load
  step := wired_step
  forget h := wired_save h _
  load _ h := wired_save h _

/-! ## The result -/

/-- What the CPU finds in the memories after a sequence of events, and what looking without
    effect shows. -/
structure Remembers (start : System) (events : List Event) : Prop where
  /-- Work RAM gives the byte written last to the same cell, at whichever of its addresses. -/
  workRam : ∀ addr : UInt16, addr < 0x2000 →
    ((start.follow events).read addr).1 =
      (written (workRamCell addr) events).getLast?.getD
        (start.hardware.workRam.read (addr.toNat % 0x800))
  /-- Save RAM gives the byte written last to the same address. -/
  save : ∀ addr : UInt16, saveWindow addr = true →
    ((start.follow events).read addr).1 =
      (written (· == addr) events).getLast?.getD
        (start.cartridge.save.read (addr.toNat - 0x6000))
  /-- Every write into save RAM is counted, in 32 bits. -/
  writes : (start.follow events).cartridge.save.writes =
    start.cartridge.save.writes + UInt32.ofNat (written saveWindow events).length
  /-- The ROM stays as it is. -/
  image : (start.follow events).cartridge.image = start.cartridge.image
  /-- Looking at memory shows what the CPU would read. -/
  peekMemories : ∀ addr : UInt16, addr < 0x2000 ∨ saveWindow addr = true →
    (start.follow events).peek addr = ((start.follow events).read addr).1
  /-- Looking at PRG space shows what the CPU would read, as far as the ROM reaches. -/
  peekPrg : ∀ addr : UInt16, 0x8000 ≤ addr →
    ∃ offset, (start.follow events).hardware.map.resolve addr = (.prg, offset) ∧
      (offset < start.cartridge.image.prg.size →
        (start.follow events).peek addr = ((start.follow events).read addr).1)
  /-- Looking at registers shows nothing. -/
  peekRegisters : ∀ addr : UInt16, 0x2000 ≤ addr → addr < 0x6000 →
    (start.follow events).peek addr = 0

theorem remembers_of_banked (sized : image.Sized) (h : Banked image system)
    (events : List Event) : Remembers system events := by
  have run := run_follow system events
  have hafter := banked_run sized run h
  have himage := run.image_eq.1
  refine ⟨fun addr haddr => ?workRam, fun addr haddr => ?save, writes_follow sized h events,
    himage, ?peekMemories, fun addr haddr => ?peekPrg, fun addr => peek_register hafter⟩
  case workRam => exact (read_workRam hafter haddr).2.trans (workRam_follow sized h events addr)
  case save => exact (read_save hafter haddr).2.trans (save_follow sized h events haddr)
  case peekMemories =>
    rintro addr (haddr | haddr)
    · exact peek_eq_read _ (read_workRam hafter haddr).1 (.inl rfl)
    · exact peek_eq_read _ (read_save hafter haddr).1 (.inr (.inl rfl))
  case peekPrg =>
    rw [← himage]
    exact peek_prg hafter haddr

end System

namespace Console

/-- A cartridge with a built-in board is plugged in, and the console has been running since, in
    whatever way. Whatever the CPU then reads and writes, the memories remember what was written
    last, and the ROM does not change. -/
theorem memories_last_written {registry : Registry} {turns : List Turn} {cartridge : Cartridge}
    (hplugged : (({ registry } : Console).after turns).cartridge = some cartridge)
    (builtin : cartridge.pristine.isBuiltin = true) {start : System}
    (reached : System.Run
      (.plugged (({ registry } : Console).after turns).hardware cartridge) start)
    (events : List System.Event) : start.Remembers events := by
  have wired := (holds_after (System.invariant_wired registry) turns).system cartridge hplugged
  have hstart := reached.keeps System.wired_step wired
  have hpristine : start.cartridge.pristine.isBuiltin = true := by
    rw [reached.image_eq.2]
    exact builtin
  exact System.remembers_of_banked hstart.sized (hstart.banked hpristine) events

/-- After the first frame of a cartridge with a battery, which only asks for its stored image. -/
theorem plugged_of_load {registry : Registry} {bytes : Bytes} {cartridge : Cartridge}
    (load : Cartridge.load registry bytes none = .ok cartridge)
    (battery : cartridge.battery = true) (files : Files) (buttons : UInt8 × UInt8) :
    ∃ board irq, (({ registry } : Console).after
      [⟨files, .insert (.image bytes)⟩, ⟨files, .frame buttons⟩]).cartridge =
        some { cartridge with board, irq } := by
  let chosen : Console := { registry, source := some (.image bytes) }
  obtain ⟨⟨board, irq, hcartridge⟩, _⟩ := powerOn_plugged chosen cartridge
  exact ⟨board, irq, by rw [after_first_frame load battery files buttons, hcartridge]⟩

/-- A byte written at $0801 is read at $0001, after sprite DMA, a write into save RAM and one to
    the board; of the four writes, one is counted. -/
theorem memories_last_written_of_header :
    ∃ turns cartridge, (({} : Console).after turns).cartridge = some cartridge ∧
      cartridge.pristine.isBuiltin = true ∧
      ∃ start last, System.Run (.plugged (({} : Console).after turns).hardware cartridge) start ∧
        start.follow [.write 0x0801 5, .write 0x4014 0, .write 0x6000 7, .write 0x8000 0x80] =
          last ∧
        (last.read 0x0001).1 = 5 ∧ last.peek 0x0001 = 5 ∧
        last.cartridge.save.writes = start.cartridge.save.writes + 1 := by
  have hload : ∃ cartridge, Cartridge.load {} batteryHeader none = .ok cartridge ∧
      cartridge.battery = true ∧ cartridge.pristine.isBuiltin = true := ⟨_, rfl, rfl, rfl⟩
  obtain ⟨cartridge, load, battery, builtin⟩ := hload
  obtain ⟨board, irq, hplugged⟩ := plugged_of_load load battery (fun _ => .ok #[]) (0, 0)
  have h := memories_last_written hplugged builtin (.refl _)
    [.write 0x0801 5, .write 0x4014 0, .write 0x6000 7, .write 0x8000 0x80]
  have hread := h.workRam 0x0001 (by decide)
  have hpeek := h.peekMemories 0x0001 (.inl (by decide))
  exact ⟨_, _, hplugged, builtin, _, _, .refl _, rfl, hread, hpeek.trans hread, h.writes⟩

end Console
end Nes
