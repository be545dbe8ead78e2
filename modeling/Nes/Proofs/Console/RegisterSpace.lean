/-
  Registers answer at no other addresses than their own, whatever a board maps.

  A board can map PRG windows and nothing else. A window over the registers hides them; one that is
  moved away again does not bring them back. So outside of $2000 to $401F no register ever answers
  (`MemoryMap.Orderly`), and a read there has no effect (`access_quiet`).
-/
import Nes.Proofs.Board.Actions
import Nes.Proofs.Console.Requests
import Nes.Proofs.MemoryMap

namespace Nes

namespace MemoryMap

/-- The windows cover the space without gaps or overlaps, and registers answer at their own
    addresses only. -/
structure Orderly (map : MemoryMap) : Prop where
  tiles : Tiles map.windows 0 0x10000
  registers : ∀ addr : UInt16, (map.resolve addr).1 = .ppu ∨ (map.resolve addr).1 = .io →
    0x2000 ≤ addr.toNat ∧ addr.toNat < 0x4020

theorem orderly_console : console.Orderly := by
  refine ⟨tiles_console, fun addr => ?_⟩
  rw [resolve_console]
  by_cases hram : addr.toNat < 0x2000
  · simp [hram]
  · by_cases hio : addr.toNat < 0x4020
    · exact fun _ => ⟨Nat.le_of_not_lt hram, hio⟩
    · have hppu : ¬ addr.toNat < 0x4000 := by omega
      rw [if_neg hram, if_neg hppu, if_neg hio]
      split
      · simp
      · split <;> simp

theorem Orderly.assign {map : MemoryMap} (h : map.Orderly) (first last : UInt16) (base : Nat) :
    (map.assign .prg first last base).Orderly := by
  refine ⟨tiles_assign h.tiles .prg first last base, fun addr => ?_⟩
  rw [resolve_assign h.tiles]
  split
  · simp
  · exact h.registers addr

end MemoryMap

/-- Whatever a board does, the map stays orderly. -/
theorem Slot.Action.orderly {image : Image} {a b : Slot} (action : Slot.Action image a b)
    (h : a.map.Orderly) : b.map.Orderly := by
  cases action with
  | mapPrg start size bank =>
    unfold Slot.mapPrg
    dsimp only
    split
    · exact h
    · exact h.assign _ _ _
  | loadChr addr size bank =>
    unfold Slot.loadChr
    dsimp only
    split <;> exact h
  | setMirroring | setIrq | note => exact h

namespace System

/-- The map is orderly. -/
def Orderly (system : System) : Prop := system.hardware.map.Orderly

theorem orderly_onBoard {system : System} {act : Board → Image → Slot → Board × Slot}
    (run : ∀ board image slot, Slot.Run image slot (act board image slot).2)
    (h : system.Orderly) : (system.onBoard act).Orderly :=
  (run system.cartridge.board system.cartridge.image system.slot).keeps
    (P := fun slot => slot.map.Orderly) (fun action => action.orderly) h

theorem orderly_initBoard {system : System} (h : system.Orderly) (kind : ResetKind) :
    (system.initBoard kind).Orderly := by
  unfold initBoard
  exact orderly_onBoard (fun board image slot => Board.run_init image slot board kind) h

theorem orderly_step {a b : System} (step : Step a b) (h : a.Orderly) : b.Orderly := by
  cases step with
  | ppu | apu | io | writeWorkRam | writeSave => exact h
  | writeBoard addr data =>
    exact orderly_onBoard (fun board image slot => Board.run_write image slot board addr data) h
  | preLine line =>
    exact orderly_onBoard (fun board image slot => Board.run_preLine image slot board line) h
  | hblank line =>
    exact orderly_onBoard (fun board image slot => Board.run_hblank image slot board line) h
  | vblank =>
    exact orderly_onBoard (fun board image slot => Board.run_vblank image slot board) h
  | resetBoard => exact orderly_initBoard h .soft

theorem invariant_orderly (registry : Registry) : Invariant registry Orderly where
  powerOn := by
    intro source files cartridge load
    have hnew : (plugged {} cartridge).Orderly := MemoryMap.orderly_console
    exact orderly_initBoard hnew .power
  step := orderly_step
  forget h := h
  load _ h := h

variable {system : System}

/-- The addresses of work RAM, of save RAM and of PRG space, and all others behind the registers. -/
def quiet (addr : UInt16) : Bool := addr < 0x2000 || 0x4020 ≤ addr

/-- No register answers there. -/
theorem device_quiet (h : system.Orderly) {addr : UInt16} (haddr : quiet addr = true) :
    (system.hardware.map.resolve addr).1 ≠ .ppu ∧ (system.hardware.map.resolve addr).1 ≠ .io := by
  have hoff : ¬ (0x2000 ≤ addr.toNat ∧ addr.toNat < 0x4020) := by
    simp only [quiet, Bool.or_eq_true, decide_eq_true_eq, UInt16.lt_iff_toNat_lt,
      UInt16.le_iff_toNat_le] at haddr
    simp at haddr
    omega
  exact ⟨fun hppu => hoff (h.registers addr (.inl hppu)),
    fun hio => hoff (h.registers addr (.inr hio))⟩

/-- A read of anything but a register leaves everything as it is. -/
theorem access_quiet (h : system.Orderly) {addr : UInt16} (haddr : quiet addr = true) :
    (system.access addr).2 = system := by
  obtain ⟨hppu, hio⟩ := device_quiet h haddr
  unfold access
  split
  · rfl
  · next hdevice => exact absurd (congrArg Prod.fst hdevice) hppu
  · next hdevice => exact absurd (congrArg Prod.fst hdevice) hio
  · rfl
  · rfl
  · rfl

/-- So it changes the byte on the data lines and nothing else. -/
theorem read_quiet (h : system.Orderly) {addr : UInt16} (haddr : quiet addr = true) :
    (system.read addr).2 = system.mapIo (·.drive (system.read addr).1) := by
  show (system.access addr).2.mapIo (·.drive (system.access addr).1) = _
  rw [access_quiet h haddr]
  rfl

end System
end Nes
