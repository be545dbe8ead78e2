/-
  The memory map while banks are mapped.

  A board maps its PRG windows in ascending order. `Filled map done start` says how far it has
  come: the windows of `done` are in place below address `start`, and what follows does not reach
  below it. Mapping the next window appends it to `done` (`filled_assign`), and at the end of the
  address space nothing else is left (`filled_end`). So a board does not have to know what was
  mapped before.
-/
import Nes.MemoryMap
import Nes.Board.Slot

namespace Nes

/-! ## Cutting a window -/

namespace Window

theorem below_of_lt {w : Window} {first : Nat} (h₁ : w.first < first) (h₂ : w.last < first) :
    w.below first = some w := by
  unfold below
  rw [if_pos h₁, Nat.min_eq_left (by omega)]

theorem below_of_le {w : Window} {first : Nat} (h : first ≤ w.first) : w.below first = none := by
  unfold below
  rw [if_neg (by omega)]

theorem above_of_le {w : Window} {last : Nat} (h : w.last ≤ last) : w.above last = none := by
  unfold above
  rw [if_neg (by omega)]

theorem above_of_lt {w : Window} {last : Nat} (h₁ : last < w.first) (h₂ : w.first ≤ w.last) :
    w.above last = some w := by
  unfold above offset
  rw [if_pos (by omega), Nat.max_eq_left (by omega)]
  dsimp only
  rw [Nat.sub_self, Nat.add_zero]

/-- What is left above a cut starts above it, and ends where the window ended. -/
theorem above_bounds {w v : Window} {last : Nat} (h : w.above last = some v)
    (hw : w.first ≤ w.last) : last < v.first ∧ v.first ≤ v.last ∧ v.last = w.last := by
  unfold above at h
  split at h
  · cases h
    dsimp only
    omega
  · cases h

end Window

namespace MemoryMap

/-- All windows end below an address. -/
def EndBelow (windows : List Window) (start : Nat) : Prop :=
  ∀ w ∈ windows, w.first < start ∧ w.last < start

/-- All windows lie between an address and the end of the address space. -/
def StartFrom (windows : List Window) (start : Nat) : Prop :=
  ∀ w ∈ windows, start ≤ w.first ∧ w.first ≤ w.last ∧ w.last ≤ 0xFFFF

theorem filterMap_below {windows : List Window} {first : Nat} (h : EndBelow windows first) :
    windows.filterMap (·.below first) = windows := by
  induction windows with
  | nil => rfl
  | cons w windows ih =>
    have hw := h w List.mem_cons_self
    rw [List.filterMap_cons, Window.below_of_lt hw.1 hw.2,
      ih fun v hv => h v (List.mem_cons_of_mem w hv)]

theorem filterMap_below_nil {windows : List Window} {first : Nat}
    (h : StartFrom windows first) : windows.filterMap (·.below first) = [] := by
  rw [List.filterMap_eq_nil_iff]
  intro w hw
  exact Window.below_of_le (h w hw).1

theorem filterMap_above_nil {windows : List Window} {first last : Nat}
    (h : EndBelow windows first) (hlast : first ≤ last) :
    windows.filterMap (·.above last) = [] := by
  rw [List.filterMap_eq_nil_iff]
  intro w hw
  have hend := (h w hw).2
  exact Window.above_of_le (by omega)

/-- A new window between those that end below it and those that do not start below it. -/
theorem assign_between (device : Device) {first last : UInt16} (h : first ≤ last) (base : Nat)
    {lower upper : List Window} (hlower : EndBelow lower first.toNat)
    (hupper : StartFrom upper first.toNat) :
    ((⟨lower ++ upper⟩ : MemoryMap).assign device first last base).windows =
      lower ++ ⟨first.toNat, last.toNat, device, base⟩ ::
        upper.filterMap (·.above last.toNat) := by
  have hle : first.toNat ≤ last.toNat := UInt16.le_iff_toNat_le.mp h
  unfold assign
  rw [if_neg (by rw [UInt16.lt_iff_toNat_lt]; omega)]
  dsimp only
  rw [List.filterMap_append, List.filterMap_append, filterMap_below hlower,
    filterMap_below_nil hupper, filterMap_above_nil hlower hle, List.append_nil, List.nil_append]

/-! ## Filling the address space from below -/

/-- The windows of `done` are in place, and what follows lies from `start` on. -/
def Filled (map : MemoryMap) (done : List Window) (start : Nat) : Prop :=
  EndBelow done start ∧ ∃ rest, StartFrom rest start ∧ map.windows = done ++ rest

theorem filled_assign {map : MemoryMap} {done : List Window} {first last : UInt16}
    (h : Filled map done first.toNat) (hle : first ≤ last) (device : Device) (base : Nat) :
    Filled (map.assign device first last base)
      (done ++ [⟨first.toNat, last.toNat, device, base⟩]) (last.toNat + 1) := by
  obtain ⟨hdone, rest, hrest, hwindows⟩ := h
  have hnat : first.toNat ≤ last.toNat := UInt16.le_iff_toNat_le.mp hle
  refine ⟨?_, rest.filterMap (·.above last.toNat), ?_, ?_⟩
  · intro w hw
    rw [List.mem_append, List.mem_singleton] at hw
    cases hw with
    | inl hw =>
      have hbounds := hdone w hw
      omega
    | inr hw =>
      subst hw
      dsimp only
      omega
  · intro v hv
    obtain ⟨w, hw, hcut⟩ := List.mem_filterMap.mp hv
    have hbounds := hrest w hw
    have habove := Window.above_bounds hcut hbounds.2.1
    omega
  · obtain ⟨windows⟩ := map
    dsimp only at hwindows
    subst hwindows
    rw [assign_between device hle base hdone hrest, List.append_assoc]
    rfl

/-- When the whole address space is filled, nothing else is mapped. -/
theorem filled_end {map : MemoryMap} {done : List Window} (h : Filled map done 0x10000) :
    map.windows = done := by
  obtain ⟨_, rest, hrest, hwindows⟩ := h
  cases rest with
  | nil => rw [hwindows, List.append_nil]
  | cons w rest =>
    have hbounds := hrest w List.mem_cons_self
    omega

/-! ## Finding a window -/

theorem lookup_cons (addr : Nat) (w : Window) (rest : List Window) :
    lookup addr (w :: rest) =
      if addr ≤ w.last then (w.device, w.offset addr) else lookup addr rest := rfl

theorem lookup_below {lower : List Window} {addr : Nat} (h : ∃ w ∈ lower, addr ≤ w.last)
    (upper : List Window) : lookup addr (lower ++ upper) = lookup addr lower := by
  induction lower with
  | nil =>
    obtain ⟨w, hw, _⟩ := h
    cases hw
  | cons v lower ih =>
    rw [List.cons_append, lookup_cons, lookup_cons]
    split
    · rfl
    · next hv =>
      apply ih
      obtain ⟨w, hw, haddr⟩ := h
      cases hw with
      | head => exact absurd haddr hv
      | tail _ hw => exact ⟨w, hw, haddr⟩

theorem lookup_above {lower : List Window} {start addr : Nat} (h : EndBelow lower start)
    (haddr : start ≤ addr) (upper : List Window) :
    lookup addr (lower ++ upper) = lookup addr upper := by
  induction lower with
  | nil => rfl
  | cons w lower ih =>
    have hw := (h w List.mem_cons_self).2
    rw [List.cons_append, lookup_cons, if_neg (by omega)]
    exact ih fun v hv => h v (List.mem_cons_of_mem w hv)

/-! ## The console's own windows -/

/-- The windows below the PRG space. -/
def consoleWindows : List Window := console.windows.dropLast

theorem console_windows :
    console.windows = consoleWindows ++ [⟨0x8000, 0xFFFF, .unmapped, 0x8000⟩] := by
  decide

theorem endBelow_console : EndBelow consoleWindows 0x8000 := by
  unfold EndBelow
  decide

theorem lookup_console {addr : Nat} (h : addr < 0x8000) (upper : List Window) :
    lookup addr (consoleWindows ++ upper) = lookup addr console.windows := by
  have hcovered : ∃ w ∈ consoleWindows, addr ≤ w.last := by
    refine ⟨⟨0x6000, 0x7FFF, .saveRam, 0⟩, by decide, ?_⟩
    dsimp only
    omega
  rw [console_windows, lookup_below hcovered, lookup_below hcovered]

/-- The console's own windows are in place, and the cartridge's lie above. -/
theorem filled_console {map : MemoryMap} {upper : List Window} (h : StartFrom upper 0x8000)
    (hwindows : map.windows = consoleWindows ++ upper) : Filled map consoleWindows 0x8000 :=
  ⟨endBelow_console, upper, h, hwindows⟩

end MemoryMap

/-! ## Mapping banks -/

open MemoryMap

theorem Slot.filled_mapPrg (image : Image) (start : UInt16) (size bank : Nat) {slot : Slot}
    {done : List Window} (h : Filled slot.map done start.toNat) (hsize : 0 < size)
    (hend : start.toNat + size ≤ 0x10000) :
    Filled (slot.mapPrg image start size bank).map
      (done ++ [⟨start.toNat, start.toNat + size - 1, .prg,
        bank % image.prgBankCount size * size⟩]) (start.toNat + size) := by
  have hlast : (UInt16.ofNat (start.toNat + size - 1)).toNat = start.toNat + size - 1 := by
    rw [UInt16.toNat_ofNat']
    omega
  have hle : start ≤ UInt16.ofNat (start.toNat + size - 1) := by
    rw [UInt16.le_iff_toNat_le, hlast]
    omega
  have hassign := filled_assign h hle .prg (bank % image.prgBankCount size * size)
  rw [hlast, Nat.sub_add_cancel (by omega)] at hassign
  unfold mapPrg
  rw [if_neg (by omega)]
  exact hassign

end Nes
