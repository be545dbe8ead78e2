/-
  The serial port of an MMC1.

  Model (read this before the theorems). A board sees the writes of a program as a list, the first
  one first. `Mmc1.commands` says what such a list tells the board, with no state at all: the writes
  with bit 7 set cut the list into stretches, every stretch is read in groups of five, and a group
  is a number and the register that its last address selects. `Mmc1.unfinished` is what is left
  over at the end, a group of fewer than five. `Registers.obey` is what one command does.

  The board itself has a shift register and a count. While it is `Waiting` for the rest of a group,
  they are the number and the length of what is there of it. One write gives up the group, ends it
  or makes it longer (`write_cancel`, `write_last`, `write_more`), and `obeys` follows from these
  by induction on the writes: their group is the one with which the induction starts.
-/
import Mathlib.Algebra.GroupWithZero.Nat
import Nes.Proofs.Console.Steps

namespace Nes

/-- A write of the CPU that the board sees. -/
structure BoardWrite where
  addr : UInt16
  data : UInt8
  inSpace : prgSpace ≤ addr

namespace Mmc1

/-! ## What writes say -/

/-- Bit 7 is set. -/
def cancels (write : BoardWrite) : Bool := bit write.data 7

/-- The number whose bits are the lowest ones of the data, the first one lowest. -/
def number : List BoardWrite → Nat
  | [] => 0
  | write :: writes => (bit write.data 0).toNat + 2 * number writes

/-- The registers that a number can be put into. -/
inductive Register
  | control
  | chrBank0
  | chrBank1
  | prgBank
deriving DecidableEq

/-- The register that bits 13 and 14 of an address select. -/
def Register.ofAddress (addr : UInt16) : Register :=
  match addr.toNat.testBit 14, addr.toNat.testBit 13 with
  | false, false => control
  | false, true => chrBank0
  | true, false => chrBank1
  | true, true => prgBank

/-- What a board is told. -/
inductive Command
  /-- The PRG mode is 3. -/
  | fixLast
  /-- A register holds a number. -/
  | put (register : Register) (value : Nat)
deriving DecidableEq

/-- The groups of five in a stretch, in order. -/
def puts : List BoardWrite → List Command
  | a :: b :: c :: d :: e :: rest => .put (.ofAddress e.addr) (number [a, b, c, d, e]) :: puts rest
  | _ => []

/-- What follows the groups of five. -/
def leftOver : List BoardWrite → List BoardWrite
  | _ :: _ :: _ :: _ :: _ :: rest => leftOver rest
  | group => group

/-- What writes tell a board. -/
def commands (writes : List BoardWrite) : List Command :=
  [.fixLast].intercalate ((writes.splitOnP cancels).map puts)

/-- The group that is not complete when the writes end. -/
def unfinished (writes : List BoardWrite) : List BoardWrite :=
  leftOver ((writes.splitOnP cancels).getLastD [])

/-- The numbers in the registers. -/
structure Registers where
  control : Nat
  chrBank0 : Nat := 0
  chrBank1 : Nat := 0
  prgBank : Nat := 0
deriving DecidableEq

/-- What a command does. The PRG mode is in bits 2 and 3 of the control register. -/
def Registers.obey (registers : Registers) : Command → Registers
  | .fixLast =>
    { registers with control := registers.control / 16 * 16 + 0x0C + registers.control % 4 }
  | .put .control value => { registers with control := value }
  | .put .chrBank0 value => { registers with chrBank0 := value }
  | .put .chrBank1 value => { registers with chrBank1 := value }
  | .put .prgBank value => { registers with prgBank := value }

/-- The registers of a board that has just started. -/
def Registers.started (image : Image) : ResetKind → Registers
  | .power => { control := if image.header.mirroring = .vertical then 0x0E else 0x0F }
  | .soft => { control := 0x0C }

/-- The numbers in a board's registers. -/
def registers (board : Mmc1) : Registers :=
  ⟨board.control.toNat, board.chrBank0.toNat, board.chrBank1.toNat, board.prgBank.toNat⟩

/-! ## Reading a list of writes -/

section
variable {group : List BoardWrite}

theorem puts_short (h : group.length < 5) : puts group = [] := by
  match group, h with
  | [], _ | [_], _ | [_, _], _ | [_, _, _], _ | [_, _, _, _], _ => rfl

theorem leftOver_short (h : group.length < 5) : leftOver group = group := by
  match group, h with
  | [], _ | [_], _ | [_, _], _ | [_, _, _], _ | [_, _, _, _], _ => rfl

/-- The writes end within a group. -/
theorem commands_short (hplain : ∀ write ∈ group, cancels write = false) (h : group.length < 5) :
    commands group = [] ∧ unfinished group = group := by
  have hsplit := List.splitOnP_eq_singleton hplain
  unfold commands unfinished
  rw [hsplit]
  exact ⟨by rw [List.map_singleton, List.intercalate_singleton, puts_short h],
    leftOver_short h⟩

/-- A group is given up. -/
theorem commands_cancel (hplain : ∀ write ∈ group, cancels write = false) (h : group.length < 5)
    {write : BoardWrite} (hwrite : cancels write = true) (rest : List BoardWrite) :
    commands (group ++ write :: rest) = .fixLast :: commands rest ∧
      unfinished (group ++ write :: rest) = unfinished rest := by
  have hsplit := List.splitOnP_append_cons_of_forall_mem hplain write hwrite rest
  obtain ⟨head, tail, hrest⟩ := List.exists_cons_of_ne_nil (List.splitOnP_ne_nil cancels rest)
  unfold commands unfinished
  rw [hsplit, hrest]
  constructor
  · rw [List.map_cons, List.map_cons, List.intercalate_cons_cons, puts_short h]
    rfl
  · rfl

/-- A group is complete. -/
theorem commands_last (hplain : ∀ write ∈ group, cancels write = false) (h : group.length = 4)
    {write : BoardWrite} (hwrite : cancels write = false) (rest : List BoardWrite) :
    commands (group ++ write :: rest) =
        .put (.ofAddress write.addr) (number (group ++ [write])) :: commands rest ∧
      unfinished (group ++ write :: rest) = unfinished rest := by
  obtain ⟨a, b, c, d, rfl⟩ : ∃ a b c d, group = [a, b, c, d] := by
    match group, h with
    | [a, b, c, d], _ => exact ⟨a, b, c, d, rfl⟩
  obtain ⟨head, tail, hrest⟩ := List.exists_cons_of_ne_nil (List.splitOnP_ne_nil cancels rest)
  have hsplit : ([a, b, c, d] ++ write :: rest).splitOnP cancels =
      (a :: b :: c :: d :: write :: head) :: tail := by
    simp only [List.forall_mem_cons] at hplain
    obtain ⟨ha, hb, hc, hd, -⟩ := hplain
    simp [List.splitOnP_cons_eq_if_modifyHead, ha, hb, hc, hd, hwrite, hrest]
  unfold commands unfinished
  rw [hsplit, hrest]
  constructor
  · rw [List.map_cons, List.map_cons]
    exact List.intercalate_cons_cons_left
  · cases tail with
    | nil => rfl
    | cons => rfl

end

theorem number_lt (group : List BoardWrite) : number group < 2 ^ group.length := by
  induction group with
  | nil => exact Nat.one_pos
  | cons write group ih =>
    have hbit := (bit write.data 0).toNat_le
    have hpow : 2 ^ (write :: group).length = 2 * 2 ^ group.length := Nat.pow_succ'
    unfold number
    omega

theorem number_concat (group : List BoardWrite) (write : BoardWrite) :
    number (group ++ [write]) = 2 ^ group.length * (bit write.data 0).toNat + number group := by
  induction group with
  | nil => simp [number]
  | cons first group ih =>
    have hpow : 2 ^ (first :: group).length = 2 * 2 ^ group.length := Nat.pow_succ'
    rw [List.cons_append, number, ih, hpow, number, Nat.mul_add, Nat.mul_assoc]
    omega

/-! ## One write -/

/-- The board waits for the rest of a group. -/
structure Waiting (board : Mmc1) (group : List BoardWrite) : Prop where
  plain : ∀ write ∈ group, cancels write = false
  short : group.length < 5
  count_eq : board.count = group.length
  shift_eq : board.shift.toNat = number group

theorem registers_commit (board : Mmc1) (image : Image) (addr : UInt16) (value : UInt8)
    (slot : Slot) :
    (board.commit image addr value slot).1.registers =
      board.registers.obey (.put (.ofAddress addr) value.toNat) := by
  have hquarter : addr.toNat / 0x2000 % 4 =
      2 * (addr.toNat.testBit 14).toNat + (addr.toNat.testBit 13).toNat := by
    rw [Nat.toNat_testBit, Nat.toNat_testBit]
    omega
  unfold commit Register.ofAddress
  rw [hquarter]
  cases addr.toNat.testBit 14 with
  | false => cases addr.toNat.testBit 13 <;> rfl
  | true => cases addr.toNat.testBit 13 <;> rfl

/-- Bits 2 and 3 are set, and the other bits stay. -/
theorem toNat_fixed (control : UInt8) :
    (control ||| 0x0C).toNat = control.toNat / 16 * 16 + 0x0C + control.toNat % 4 := by
  have hall : ∀ n : Fin 256, n.val ||| 0x0C = n.val / 16 * 16 + 0x0C + n.val % 4 := by
    decide +kernel
  rw [UInt8.toNat_or]
  exact hall control.toFin

section
variable {board : Mmc1} {group : List BoardWrite} (h : board.Waiting group)
include h

/-- The bits with one more. -/
theorem shift_concat (write : BoardWrite) :
    (board.shift ||| (write.data &&& 1) <<< UInt8.ofNat board.count).toNat =
      number (group ++ [write]) := by
  have hshort := h.short
  have hbit : (write.data &&& 1).toNat = (bit write.data 0).toNat := by
    unfold bit
    rw [Nat.toNat_testBit, Nat.pow_zero, Nat.div_one, UInt8.toNat_and]
    exact Nat.and_one_is_mod _
  have hcount : (UInt8.ofNat board.count).toNat % 8 = group.length := by
    rw [h.count_eq, UInt8.toNat_ofNat']
    omega
  have hpow : 2 ^ group.length ≤ 2 ^ 4 := Nat.pow_le_pow_right (by decide) (by omega)
  have hnew : ((write.data &&& 1) <<< UInt8.ofNat board.count).toNat =
      2 ^ group.length * (bit write.data 0).toNat := by
    have hle : 2 ^ group.length * (bit write.data 0).toNat ≤ 2 ^ 4 * 1 :=
      Nat.mul_le_mul hpow (Bool.toNat_le _)
    rw [UInt8.toNat_shiftLeft, hcount, hbit, Nat.shiftLeft_eq, Nat.mul_comm]
    exact Nat.mod_eq_of_lt (by omega)
  rw [UInt8.toNat_or, hnew, h.shift_eq, number_concat, Nat.or_comm]
  exact (Nat.two_pow_add_eq_or_of_lt (number_lt group) _).symm

variable {write : BoardWrite} (hwrite : cancels write = false) (image : Image) (slot : Slot)

include hwrite

/-- A write that does not end the group makes it longer, and that is all. -/
theorem write_more (hmore : group.length < 4) :
    (board.write image write.addr write.data slot).1.Waiting (group ++ [write]) ∧
      (board.write image write.addr write.data slot).1.registers = board.registers ∧
      (board.write image write.addr write.data slot).2 = slot := by
  have hcount := h.count_eq
  have hshift := shift_concat h write
  unfold Mmc1.write
  rw [if_neg (by exact Bool.eq_false_iff.mp hwrite)]
  dsimp only
  rw [if_neg (by omega)]
  refine ⟨⟨?_, ?_, ?_, hshift⟩, rfl, rfl⟩
  · exact List.forall_mem_append.mpr ⟨h.plain, List.forall_mem_singleton.mpr hwrite⟩
  · rw [List.length_append, List.length_singleton]
    omega
  · rw [List.length_append, List.length_singleton, ← hcount]

/-- The fifth write of a group puts its number into a register. -/
theorem write_last (hlast : group.length = 4) :
    (board.write image write.addr write.data slot).1.Waiting [] ∧
      (board.write image write.addr write.data slot).1.registers =
        board.registers.obey (.put (.ofAddress write.addr) (number (group ++ [write]))) := by
  have hcount := h.count_eq
  have hshift := shift_concat h write
  unfold Mmc1.write
  rw [if_neg (by exact Bool.eq_false_iff.mp hwrite)]
  dsimp only
  rw [if_pos (by omega), ← hshift]
  refine ⟨⟨by simp, by decide, ?_, ?_⟩, registers_commit _ image write.addr _ slot⟩
  · unfold commit
    split <;> rfl
  · unfold commit
    split <;> rfl

end

/-- A write with bit 7 set gives up the group. -/
theorem write_cancel (board : Mmc1) {write : BoardWrite} (hwrite : cancels write = true)
    (image : Image) (slot : Slot) :
    (board.write image write.addr write.data slot).1.Waiting [] ∧
      (board.write image write.addr write.data slot).1.registers =
        board.registers.obey .fixLast := by
  have hresult : (board.write image write.addr write.data slot).1 = board.cancel := by
    unfold Mmc1.write
    rw [if_pos (by exact hwrite)]
  rw [hresult]
  refine ⟨⟨by simp, by decide, rfl, rfl⟩, ?_⟩
  unfold registers cancel Registers.obey
  rw [toNat_fixed]

end Mmc1

/-! ## Any writes -/

namespace System

/-- The system after a program's writes. -/
def writeAll (system : System) (writes : List BoardWrite) : System :=
  writes.foldl (fun system write => system.write write.addr write.data) system

/-- A write of the CPU is one of the board, which reaches its slot. -/
theorem write_mmc1 {system : System} {board : Mmc1} (h : system.cartridge.board = .mmc1 board)
    (write : BoardWrite) :
    let result := board.write system.cartridge.image write.addr write.data system.slot
    (system.write write.addr write.data).cartridge.board = .mmc1 result.1 ∧
      (system.write write.addr write.data).slot = result.2 := by
  obtain ⟨⟨map, workRam, ppu, apu, io⟩, ⟨image, _, pristine, save, irq⟩, journal⟩ := system
  cases h
  unfold System.write
  dsimp only
  rw [if_pos write.inSpace]
  exact ⟨rfl, rfl⟩

section
variable {system : System} {board : Mmc1} {group : List BoardWrite}

/-- The board does what the writes tell it, those of the group included that it waits for. -/
theorem obeys (hboard : system.cartridge.board = .mmc1 board) (h : board.Waiting group)
    (writes : List BoardWrite) :
    ∃ last, (system.writeAll writes).cartridge.board = .mmc1 last ∧
      last.Waiting (Mmc1.unfinished (group ++ writes)) ∧
      last.registers =
        (Mmc1.commands (group ++ writes)).foldl Mmc1.Registers.obey board.registers := by
  induction writes generalizing system board group with
  | nil =>
    obtain ⟨hcommands, hunfinished⟩ := Mmc1.commands_short h.plain h.short
    rw [List.append_nil, hcommands, hunfinished]
    exact ⟨board, hboard, h, rfl⟩
  | cons write writes ih =>
    obtain ⟨hnext, -⟩ := write_mmc1 hboard write
    cases hwrite : Mmc1.cancels write with
    | true =>
      obtain ⟨hwaiting, hregisters⟩ :=
        board.write_cancel hwrite system.cartridge.image system.slot
      obtain ⟨last, hlast, hrest, hobeyed⟩ := ih hnext hwaiting
      obtain ⟨hcommands, hunfinished⟩ := Mmc1.commands_cancel h.plain h.short hwrite writes
      rw [hcommands, hunfinished, List.foldl_cons, ← hregisters]
      exact ⟨last, hlast, hrest, hobeyed⟩
    | false =>
      by_cases hmore : group.length < 4
      · obtain ⟨hwaiting, hregisters, -⟩ :=
          Mmc1.write_more h hwrite system.cartridge.image system.slot hmore
        obtain ⟨last, hlast, hrest, hobeyed⟩ := ih hnext hwaiting
        rw [List.append_assoc, List.singleton_append] at hrest hobeyed
        rw [← hregisters]
        exact ⟨last, hlast, hrest, hobeyed⟩
      · have hshort := h.short
        obtain ⟨hwaiting, hregisters⟩ :=
          Mmc1.write_last h hwrite system.cartridge.image system.slot (by omega)
        obtain ⟨last, hlast, hrest, hobeyed⟩ := ih hnext hwaiting
        obtain ⟨hcommands, hunfinished⟩ :=
          Mmc1.commands_last h.plain (by omega) hwrite writes
        rw [hcommands, hunfinished, List.foldl_cons, ← hregisters]
        exact ⟨last, hlast, hrest, hobeyed⟩

/-- Writes that do not end a group change nothing but the group. -/
theorem writeAll_unfinished (hboard : system.cartridge.board = .mmc1 board)
    (h : board.Waiting group) {more : List BoardWrite}
    (hplain : ∀ write ∈ more, Mmc1.cancels write = false)
    (hshort : group.length + more.length < 5) :
    ∃ last, (system.writeAll more).cartridge.board = .mmc1 last ∧
      last.registers = board.registers ∧ (system.writeAll more).slot = system.slot := by
  induction more generalizing system board group with
  | nil => exact ⟨board, hboard, rfl, rfl⟩
  | cons write more ih =>
    obtain ⟨hwrite, hplain⟩ := List.forall_mem_cons.mp hplain
    rw [List.length_cons] at hshort
    obtain ⟨hnext, hslot⟩ := write_mmc1 hboard write
    obtain ⟨hwaiting, hregisters, hsame⟩ :=
      Mmc1.write_more h hwrite system.cartridge.image system.slot (by omega)
    have hlength : (group ++ [write]).length = group.length + 1 := List.length_append
    obtain ⟨last, hlast, hkept, hslots⟩ := ih hnext hwaiting hplain (by omega)
    exact ⟨last, hlast, hkept.trans hregisters, hslots.trans (hslot.trans hsame)⟩

end

theorem mmc1_initBoard {system : System} (h : system.cartridge.pristine = .mmc1 {})
    (kind : ResetKind) :
    ∃ board, (system.initBoard kind).cartridge.board = .mmc1 board ∧ board.Waiting [] ∧
      board.registers = .started system.cartridge.image kind := by
  have hboard : (system.initBoard kind).cartridge.board =
      .mmc1 (Mmc1.init {} system.cartridge.image kind system.startSlot).1 := by
    show (system.cartridge.pristine.init _ kind _).1 = _
    rw [h]
    rfl
  refine ⟨_, hboard, ?_, ?_⟩
  · cases kind <;> exact ⟨by simp, by decide, rfl, rfl⟩
  · cases kind with
    | power =>
      show Mmc1.Registers.mk _ _ _ _ = _
      unfold Mmc1.Registers.started
      dsimp only [Mmc1.init]
      split <;> rfl
    | soft => rfl

/-- From the start of an MMC1, whether by power-on or by the button, its registers hold what the
    writes say: a write with bit 7 set gives up the group so far and selects PRG mode 3; of the
    others, every five are a number for the register that the last address selects. The board's
    count and its bits are those of the group that is not complete yet, so they stay below 5 and
    below the power of two for that count. Writes that do not complete it change neither a register
    nor the memory map nor the PPU with its pattern tables and nametables. -/
theorem stores_groups_of_five (hardware : Hardware) (image : Image) (journal : Journal)
    (kind : ResetKind) (writes : List BoardWrite) :
    let built : System := ⟨hardware, .ofImage image (.mmc1 {}), journal⟩
    let last := (built.initBoard kind).writeAll writes
    ∃ board, last.cartridge.board = .mmc1 board ∧
      board.registers =
        (Mmc1.commands writes).foldl Mmc1.Registers.obey (.started image kind) ∧
      board.count = (Mmc1.unfinished writes).length ∧
      board.shift.toNat = Mmc1.number (Mmc1.unfinished writes) ∧
      board.count < 5 ∧ board.shift.toNat < 2 ^ board.count ∧
      ∀ more : List BoardWrite, (∀ write ∈ more, Mmc1.cancels write = false) →
        board.count + more.length < 5 →
        ∃ board', (last.writeAll more).cartridge.board = .mmc1 board' ∧
          board'.registers = board.registers ∧
          (last.writeAll more).hardware.map = last.hardware.map ∧
          (last.writeAll more).hardware.ppu = last.hardware.ppu := by
  intro built last
  have hpristine : built.cartridge.pristine = .mmc1 {} := rfl
  obtain ⟨fresh, hfresh, hwaiting, hstarted⟩ := mmc1_initBoard hpristine kind
  obtain ⟨board, hboard, hrest, hobeyed⟩ := obeys hfresh hwaiting writes
  rw [hstarted] at hobeyed
  have hshort := hrest.short
  have hlt := Mmc1.number_lt (Mmc1.unfinished writes)
  refine ⟨board, hboard, hobeyed, hrest.count_eq, hrest.shift_eq, ?_, ?_, ?_⟩
  · rw [hrest.count_eq]
    exact hshort
  · rw [hrest.count_eq, hrest.shift_eq]
    exact hlt
  · intro more hplain hmore
    rw [hrest.count_eq] at hmore
    obtain ⟨board', hboard', hregisters, hslot⟩ :=
      writeAll_unfinished hboard hrest hplain hmore
    exact ⟨board', hboard', hregisters, congrArg Slot.map hslot, congrArg Slot.ppu hslot⟩

/-- Two bits are given up, and five others arrange the nametables vertically. -/
example :
    let write (data : UInt8) : BoardWrite := ⟨0x9FFF, data, by decide⟩
    Mmc1.commands [write 1, write 1, write 0x80, write 0, write 1, write 0, write 0, write 0] =
      [.fixLast, .put .control 2] := by
  decide

end System
end Nes
