/-
  Memory maps after any sequence of mappings.

  However windows were mapped over one another, those of the map follow one another from $0000 to
  $FFFF without gaps or overlaps (`Tiles`), and an address shows what was mapped over it last
  (`resolve_assign` for one mapping, `resolve_mapAll` for a sequence of them). What a new window
  leaves of an old one still shows the same bytes of its device: below the cut the window only
  ends earlier, above it the base moves along (`lookup_filterMap_below`,
  `lookup_filterMap_above`).
-/
import Mathlib.Data.List.Induction
import Nes.Proofs.Board.Windows

namespace Nes

/-! ## Cutting a window in two -/

namespace Window

theorem below_of_mem {w : Window} {first : Nat} (h₁ : w.first < first) (h₂ : first ≤ w.last) :
    w.below first = some { w with last := first - 1 } := by
  unfold below
  rw [if_pos h₁, Nat.min_eq_right (by omega)]

theorem above_of_mem {w : Window} {last : Nat} (h₁ : w.first ≤ last) (h₂ : last < w.last) :
    w.above last = some { w with first := last + 1, base := w.offset (last + 1) } := by
  unfold above
  rw [if_pos h₂, Nat.max_eq_right (by omega)]

end Window

namespace MemoryMap

/-! ## Windows side by side -/

/-- The windows follow one another from address `start` up to, not including, `stop`. -/
def Tiles : List Window → Nat → Nat → Prop
  | [], start, stop => start = stop
  | w :: rest, start, stop => w.first = start ∧ w.first ≤ w.last ∧ Tiles rest (w.last + 1) stop

theorem tiles_le {windows : List Window} {start stop : Nat} (h : Tiles windows start stop) :
    start ≤ stop := by
  induction windows generalizing start with
  | nil => exact Nat.le_of_eq h
  | cons w rest ih =>
    obtain ⟨hfirst, hle, hrest⟩ := h
    have := ih hrest
    omega

theorem tiles_append {lower upper : List Window} {start middle stop : Nat}
    (hlower : Tiles lower start middle) (hupper : Tiles upper middle stop) :
    Tiles (lower ++ upper) start stop := by
  induction lower generalizing start with
  | nil =>
    cases hlower
    exact hupper
  | cons w rest ih => exact ⟨hlower.1, hlower.2.1, ih hlower.2.2⟩

theorem startFrom_of_tiles {windows : List Window} {start stop : Nat}
    (h : Tiles windows start stop) (hstop : stop ≤ 0x10000) : StartFrom windows start := by
  induction windows generalizing start with
  | nil =>
    intro w hw
    cases hw
  | cons v rest ih =>
    obtain ⟨hfirst, hle, hrest⟩ := h
    have hend := tiles_le hrest
    intro w hw
    cases hw with
    | head => omega
    | tail _ hw =>
      have := ih hrest w hw
      omega

theorem StartFrom.mono {windows : List Window} {start start' : Nat}
    (h : StartFrom windows start) (hle : start' ≤ start) : StartFrom windows start' := by
  intro w hw
  have := h w hw
  omega

/-- All windows end below the address where they are to end. -/
theorem endBelow_of_tiles {windows : List Window} {start stop : Nat}
    (h : Tiles windows start stop) : EndBelow windows stop := by
  induction windows generalizing start with
  | nil =>
    intro w hw
    cases hw
  | cons v rest ih =>
    obtain ⟨hfirst, hle, hrest⟩ := h
    have hend := tiles_le hrest
    intro w hw
    cases hw with
    | head => omega
    | tail _ hw => exact ih hrest w hw

/-! ## What a new window leaves of the others -/

variable {windows : List Window} {start stop first last : Nat}

theorem tiles_filterMap_below (h : Tiles windows start stop) (hend : stop ≤ 0x10000)
    (hstart : start ≤ first) (hstop : first ≤ stop) :
    Tiles (windows.filterMap (·.below first)) start first := by
  induction windows generalizing start with
  | nil =>
    have hempty : start = stop := h
    exact Nat.le_antisymm hstart (hempty ▸ hstop)
  | cons w rest ih =>
    obtain ⟨hfirst, hle, hrest⟩ := h
    have hbehind := startFrom_of_tiles hrest hend
    rw [List.filterMap_cons]
    by_cases hout : first ≤ w.first
    · rw [Window.below_of_le hout, filterMap_below_nil (hbehind.mono (by omega))]
      exact Nat.le_antisymm hstart (hfirst ▸ hout)
    · by_cases hin : w.last < first
      · rw [Window.below_of_lt (by omega) hin]
        exact ⟨hfirst, hle, ih hrest hin⟩
      · rw [Window.below_of_mem (by omega) (by omega),
          filterMap_below_nil (hbehind.mono (by omega))]
        refine ⟨hfirst, ?_, ?_⟩
        · show w.first ≤ first - 1
          omega
        · show first - 1 + 1 = first
          omega

theorem filterMap_above (h : StartFrom windows (last + 1)) :
    windows.filterMap (·.above last) = windows := by
  induction windows with
  | nil => rfl
  | cons w rest ih =>
    have hw := h w List.mem_cons_self
    rw [List.filterMap_cons, Window.above_of_lt hw.1 hw.2.1,
      ih fun v hv => h v (List.mem_cons_of_mem w hv)]

theorem tiles_filterMap_above (h : Tiles windows start stop) (hend : stop ≤ 0x10000)
    (hstart : start ≤ last + 1) (hstop : last + 1 ≤ stop) :
    Tiles (windows.filterMap (·.above last)) (last + 1) stop := by
  induction windows generalizing start with
  | nil =>
    have hempty : start = stop := h
    exact Nat.le_antisymm hstop (hempty ▸ hstart)
  | cons w rest ih =>
    obtain ⟨hfirst, hle, hrest⟩ := h
    have hbehind := startFrom_of_tiles hrest hend
    rw [List.filterMap_cons]
    by_cases hout : w.last ≤ last
    · rw [Window.above_of_le hout]
      exact ih hrest (by omega)
    · rw [filterMap_above (hbehind.mono (by omega))]
      by_cases hin : last < w.first
      · rw [Window.above_of_lt hin hle]
        exact ⟨by omega, hle, hrest⟩
      · rw [Window.above_of_mem (by omega) (by omega)]
        refine ⟨rfl, ?_, hrest⟩
        show last + 1 ≤ w.last
        omega

theorem lookup_filterMap_below (h : Tiles windows start stop) {addr : Nat} (hstart : start ≤ addr)
    (hstop : addr < stop) (haddr : addr < first) (upper : List Window) :
    lookup addr (windows.filterMap (·.below first) ++ upper) = lookup addr windows := by
  induction windows generalizing start with
  | nil =>
    have hempty : start = stop := h
    omega
  | cons w rest ih =>
    obtain ⟨hfirst, hle, hrest⟩ := h
    have hkept : w.below first = some { w with last := min w.last (first - 1) } := by
      unfold Window.below
      rw [if_pos (by omega)]
    rw [List.filterMap_cons, hkept, List.cons_append, lookup_cons, lookup_cons]
    dsimp only
    by_cases hin : addr ≤ w.last
    · rw [if_pos (by omega), if_pos hin]
      rfl
    · rw [if_neg (by omega), if_neg hin]
      exact ih hrest (by omega)

theorem lookup_filterMap_above {addr : Nat} (haddr : last < addr) :
    lookup addr (windows.filterMap (·.above last)) = lookup addr windows := by
  induction windows with
  | nil => rfl
  | cons w rest ih =>
    rw [List.filterMap_cons, lookup_cons]
    by_cases hout : w.last ≤ last
    · rw [Window.above_of_le hout, if_neg (by omega)]
      exact ih
    · have hkept : w.above last = some { w with
          first := max w.first (last + 1), base := w.offset (max w.first (last + 1)) } := by
        unfold Window.above
        rw [if_pos (by omega)]
      rw [hkept, lookup_cons, ih]
      -- what is cut off the address is put on the base
      have hoffset : w.base + (max w.first (last + 1) - w.first) +
          (addr - max w.first (last + 1)) = w.base + (addr - w.first) := by omega
      unfold Window.offset
      dsimp only
      rw [hoffset]

/-! ## One mapping -/

theorem tiles_empty : Tiles empty.windows 0 0x10000 := by
  unfold empty
  exact ⟨rfl, by decide, rfl⟩

theorem tiles_assign {map : MemoryMap} (h : Tiles map.windows 0 0x10000) (device : Device)
    (first last : UInt16) (base : Nat) :
    Tiles (map.assign device first last base).windows 0 0x10000 := by
  unfold assign
  split
  · exact h
  · next hle =>
    rw [UInt16.lt_iff_toNat_lt] at hle
    have hfirst := first.toNat_lt
    have hlast := last.toNat_lt
    have hlower := tiles_filterMap_below h (Nat.le_refl _) (Nat.zero_le first.toNat) (by omega)
    have hupper := tiles_filterMap_above h (Nat.le_refl _) (Nat.zero_le (last.toNat + 1)) (by omega)
    exact tiles_append hlower ⟨rfl, Nat.le_of_not_lt hle, hupper⟩

/-- The addresses of a new window show its device; all others show what they showed before. -/
theorem resolve_assign {map : MemoryMap} (h : Tiles map.windows 0 0x10000) (device : Device)
    (first last : UInt16) (base : Nat) (addr : UInt16) :
    (map.assign device first last base).resolve addr =
      if first ≤ addr ∧ addr ≤ last then (device, base + (addr.toNat - first.toNat))
      else map.resolve addr := by
  have haddr := addr.toNat_lt
  simp only [UInt16.le_iff_toNat_le]
  unfold assign
  split
  · next hinverted =>
    rw [UInt16.lt_iff_toNat_lt] at hinverted
    rw [if_neg (by omega)]
  · next hle =>
    rw [UInt16.lt_iff_toNat_lt] at hle
    have hlast := last.toNat_lt
    unfold resolve
    dsimp only
    by_cases hbelow : addr.toNat < first.toNat
    · rw [if_neg (by omega), lookup_filterMap_below h (Nat.zero_le _) haddr hbelow]
    · have hlower := endBelow_of_tiles (tiles_filterMap_below h (Nat.le_refl _)
        (Nat.zero_le first.toNat) (by omega))
      rw [lookup_above hlower (by omega), lookup_cons]
      dsimp only
      by_cases hin : addr.toNat ≤ last.toNat
      · rw [if_pos hin, if_pos ⟨by omega, hin⟩]
        rfl
      · rw [if_neg hin, if_neg (by omega), lookup_filterMap_above (by omega)]

theorem assign_inverted (map : MemoryMap) (device : Device) {first last : UInt16}
    (h : last < first) (base : Nat) : map.assign device first last base = map := by
  unfold assign
  rw [if_pos h]

/-! ## Searching -/

/-- The window of an address is the last of those that start at or below it. -/
theorem getLast?_takeWhile (h : Tiles windows start stop) {addr : Nat} (hstart : start ≤ addr)
    (hstop : addr < stop) :
    ∃ w, (windows.takeWhile (·.first ≤ addr)).getLast? = some w ∧ addr ≤ w.last ∧
      lookup addr windows = (w.device, w.offset addr) := by
  induction windows generalizing start with
  | nil =>
    have hempty : start = stop := h
    omega
  | cons w rest ih =>
    obtain ⟨hfirst, hle, hrest⟩ := h
    rw [List.takeWhile_cons_of_pos (by simpa [hfirst] using hstart), lookup_cons]
    by_cases hin : addr ≤ w.last
    · have hnone : rest.takeWhile (·.first ≤ addr) = [] := by
        cases rest with
        | nil => rfl
        | cons v rest =>
          have hv := hrest.1
          exact List.takeWhile_cons_of_neg (by simp only [decide_eq_true_eq]; omega)
      rw [hnone, if_pos hin]
      exact ⟨w, rfl, hin, rfl⟩
    · obtain ⟨v, hv, hlast, hlookup⟩ := ih hrest (by omega)
      rw [if_neg hin]
      refine ⟨v, ?_, hlast, hlookup⟩
      rw [List.getLast?_cons, hv]
      rfl

/-- An address shows the window that it lies in. -/
theorem lookup_of_mem (h : Tiles windows start stop) (hend : stop ≤ 0x10000) {w : Window}
    (hw : w ∈ windows) {addr : Nat} (hfrom : w.first ≤ addr) (hto : addr ≤ w.last) :
    lookup addr windows = (w.device, w.offset addr) := by
  induction windows generalizing start with
  | nil => cases hw
  | cons v rest ih =>
    obtain ⟨hfirst, hle, hrest⟩ := h
    rw [lookup_cons]
    cases hw with
    | head => rw [if_pos hto]
    | tail _ hw =>
      have hbehind := startFrom_of_tiles hrest hend w hw
      rw [if_neg (by omega)]
      exact ih hrest hw

/-! ## The console's own windows -/

theorem tiles_console : Tiles console.windows 0 0x10000 := by
  unfold console
  iterate 7 apply tiles_assign
  exact tiles_empty

/-- Work RAM answers four times over, the other devices at one place each. -/
theorem resolve_console (addr : UInt16) :
    console.resolve addr =
      if addr.toNat < 0x2000 then (.workRam, addr.toNat % 0x800)
      else if addr.toNat < 0x4000 then (.ppu, addr.toNat - 0x2000)
      else if addr.toNat < 0x4020 then (.io, addr.toNat - 0x4000)
      else if addr.toNat < 0x6000 then (.unmapped, addr.toNat)
      else if addr.toNat < 0x8000 then (.saveRam, addr.toNat - 0x6000)
      else (.unmapped, addr.toNat) := by
  have haddr := addr.toNat_lt
  have hwindow (w : Window) (hw : w ∈ console.windows) (hfrom : w.first ≤ addr.toNat)
      (hto : addr.toNat ≤ w.last) :
      console.resolve addr = (w.device, w.base + (addr.toNat - w.first)) :=
    lookup_of_mem tiles_console (Nat.le_refl _) hw hfrom hto
  split
  · have hmirrors : ∀ i < 4, ⟨0x800 * i, 0x800 * i + 0x7FF, .workRam, 0⟩ ∈ console.windows := by
      decide
    have hfrom : 0x800 * (addr.toNat / 0x800) ≤ addr.toNat := Nat.mul_div_le _ _
    have hto : addr.toNat ≤ 0x800 * (addr.toNat / 0x800) + 0x7FF := by omega
    have hoffset : 0 + (addr.toNat - 0x800 * (addr.toNat / 0x800)) = addr.toNat % 0x800 := by
      omega
    rw [hwindow _ (hmirrors (addr.toNat / 0x800) (by omega)) hfrom hto, hoffset]
  · next hppu =>
    split
    · next hto =>
      rw [hwindow ⟨0x2000, 0x3FFF, .ppu, 0⟩ (by decide) (Nat.le_of_not_lt hppu)
        (Nat.le_of_lt_succ hto), Nat.zero_add]
    · next hio =>
      split
      · next hto =>
        rw [hwindow ⟨0x4000, 0x401F, .io, 0⟩ (by decide) (Nat.le_of_not_lt hio)
          (Nat.le_of_lt_succ hto), Nat.zero_add]
      · next hopen =>
        have hfrom : 0x4020 ≤ addr.toNat := Nat.le_of_not_lt hopen
        split
        · next hto =>
          rw [hwindow ⟨0x4020, 0x5FFF, .unmapped, 0x4020⟩ (by decide) hfrom
            (Nat.le_of_lt_succ hto), Nat.add_sub_cancel' hfrom]
        · next hsave =>
          split
          · next hto =>
            rw [hwindow ⟨0x6000, 0x7FFF, .saveRam, 0⟩ (by decide) (Nat.le_of_not_lt hsave)
              (Nat.le_of_lt_succ hto), Nat.zero_add]
          · next hprg =>
            have hfrom : 0x8000 ≤ addr.toNat := Nat.le_of_not_lt hprg
            rw [hwindow ⟨0x8000, 0xFFFF, .unmapped, 0x8000⟩ (by decide) hfrom
              (Nat.le_of_lt_succ haddr), Nat.add_sub_cancel' hfrom]

/-! ## A sequence of mappings -/

/-- A device that is mapped from `first` to `last`. -/
structure Mapping where
  device : Device
  first : UInt16
  last : UInt16
  base : Nat

namespace Mapping

/-- Whether an address lies in the range. A range that ends before it starts has none. -/
def covers (m : Mapping) (addr : UInt16) : Bool := m.first ≤ addr && addr ≤ m.last

/-- What an address shows when the mapping is in place. -/
def shown (m : Mapping) (addr : UInt16) : Device × Nat :=
  (m.device, m.base + (addr.toNat - m.first.toNat))

end Mapping

/-- The map after a sequence of mappings, when nothing was mapped before. -/
def mapAll (mappings : List Mapping) : MemoryMap :=
  mappings.foldl (fun map m => map.assign m.device m.first m.last m.base) empty

/-- The mapping that was made last of those over an address. -/
def latest? (mappings : List Mapping) (addr : UInt16) : Option Mapping :=
  (mappings.filter (·.covers addr)).getLast?

theorem mapAll_concat (mappings : List Mapping) (m : Mapping) :
    mapAll (mappings ++ [m]) = (mapAll mappings).assign m.device m.first m.last m.base := by
  unfold mapAll
  rw [List.foldl_append]
  rfl

theorem latest?_concat (mappings : List Mapping) (m : Mapping) (addr : UInt16) :
    latest? (mappings ++ [m]) addr =
      if m.first ≤ addr ∧ addr ≤ m.last then some m else latest? mappings addr := by
  unfold latest? Mapping.covers
  rw [List.filter_append]
  by_cases h : m.first ≤ addr ∧ addr ≤ m.last
  · rw [if_pos h, List.filter_cons_of_pos (by simpa using h)]
    exact List.getLast?_concat
  · rw [if_neg h, List.filter_cons_of_neg (by simpa using h), List.filter_nil, List.append_nil]

theorem tiles_mapAll (mappings : List Mapping) : Tiles (mapAll mappings).windows 0 0x10000 := by
  induction mappings using List.reverseRec with
  | nil => exact tiles_empty
  | append_singleton mappings m ih =>
    rw [mapAll_concat]
    exact tiles_assign ih m.device m.first m.last m.base

theorem resolve_empty (addr : UInt16) : empty.resolve addr = (.unmapped, addr.toNat) := by
  have haddr := addr.toNat_lt
  unfold empty resolve
  rw [lookup_cons]
  unfold Window.offset
  dsimp only
  rw [if_pos (by omega), Nat.zero_add, Nat.sub_zero]

theorem resolve_mapAll (mappings : List Mapping) (addr : UInt16) :
    (mapAll mappings).resolve addr =
      ((latest? mappings addr).map (·.shown addr)).getD (.unmapped, addr.toNat) := by
  induction mappings using List.reverseRec with
  | nil => exact resolve_empty addr
  | append_singleton mappings m ih =>
    rw [mapAll_concat, resolve_assign (tiles_mapAll mappings), latest?_concat, ih]
    split
    · rfl
    · rfl

/-- After any sequence of mappings the windows cover the address space without gaps or overlaps
    in ascending order, so that a search for the last window that starts at or below an address
    finds the one that holds it. Every address shows the mapping that was made last over it, or
    nothing if there is none; a range that ends before it starts changes nothing; and no local
    offset gets out of the bounds that the mappings themselves keep to. -/
theorem last_mapping_wins (mappings : List Mapping) :
    Tiles (mapAll mappings).windows 0 0x10000 ∧
    (∀ addr : UInt16, ∃ w,
      ((mapAll mappings).windows.takeWhile (·.first ≤ addr.toNat)).getLast? = some w ∧
        addr.toNat ≤ w.last ∧
        (mapAll mappings).resolve addr = (w.device, w.offset addr.toNat)) ∧
    (∀ addr, (mapAll mappings).resolve addr =
      match latest? mappings addr with
      | some m => (m.device, m.base + (addr.toNat - m.first.toNat))
      | none => (.unmapped, addr.toNat)) ∧
    (∀ m : Mapping, m.last < m.first → mapAll (mappings ++ [m]) = mapAll mappings) ∧
    (∀ limit, 0x10000 ≤ limit → (∀ m ∈ mappings, m.base + 0xFFFF < limit) →
      ∀ addr, ((mapAll mappings).resolve addr).2 < limit) := by
  have htiles := tiles_mapAll mappings
  refine ⟨htiles, fun addr => ?_, fun addr => ?_, fun m hm => ?_,
    fun limit hlimit hall addr => ?_⟩
  · exact getLast?_takeWhile htiles (Nat.zero_le _) addr.toNat_lt
  · rw [resolve_mapAll]
    cases latest? mappings addr with
    | none => rfl
    | some m => rfl
  · rw [mapAll_concat, assign_inverted _ _ hm]
  · have haddr := addr.toNat_lt
    rw [resolve_mapAll]
    cases hm : latest? mappings addr with
    | none =>
      show addr.toNat < limit
      omega
    | some m =>
      have hmem : m ∈ mappings := (List.mem_filter.mp (List.mem_of_getLast? hm)).1
      have hbase := hall m hmem
      show m.base + (addr.toNat - m.first.toNat) < limit
      omega

/-- A window, another one inside it, and a range that ends before it starts. -/
def overlapping : List Mapping :=
  [⟨.prg, 0x8000, 0xFFFF, 0⟩, ⟨.saveRam, 0xA000, 0xBFFF, 0x10000⟩, ⟨.workRam, 0x9000, 0x8000, 0⟩]

/-- What the second window leaves of the first one above it still shows the same bytes. -/
theorem last_mapping_wins_of_overlapping :
    Tiles (mapAll overlapping).windows 0 0x10000 ∧
      (mapAll overlapping).resolve 0x7FFF = (.unmapped, 0x7FFF) ∧
      (mapAll overlapping).resolve 0x9000 = (.prg, 0x1000) ∧
      (mapAll overlapping).resolve 0xA000 = (.saveRam, 0x10000) ∧
      (mapAll overlapping).resolve 0xC000 = (.prg, 0x4000) ∧
      ((mapAll overlapping).resolve 0xFFFF).2 < 0x20000 := by
  obtain ⟨htiles, _, hresolve, _, hlimit⟩ := last_mapping_wins overlapping
  exact ⟨htiles, hresolve 0x7FFF, hresolve 0x9000, hresolve 0xA000, hresolve 0xC000,
    hlimit 0x20000 (by decide) (by decide) 0xFFFF⟩

end MemoryMap
end Nes
