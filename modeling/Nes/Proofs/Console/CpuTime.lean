/-
  The console's CPU keeps time with the scanlines.

  Only a sprite DMA makes the CPU wait (`System.stall_write_le`), and no step writes more than one
  byte outside the stack page. So no lap waits longer than `waitLimit` (`Laps.prompt`), the surplus
  of a scanline stays within its limit, and no cycles to wait for are left over. This is
  `Machine.OnTime`; scanlines, frames and requests keep it, and a console has it after any
  sequence of requests (`onTime_after`).

  `Machine.keeps_time` puts together what holds of the CPU on any bus and on this one.
-/
import Nes.Proofs.Console.Reactions
import Nes.Proofs.Cpu.Laps

namespace Nes

/-! ## The cycles to wait for -/

namespace System

/-- The cycles that the CPU still has to wait. -/
def stall (system : System) : Nat := system.hardware.io.stall

theorem stall_initBoard (system : System) (kind : ResetKind) :
    (system.initBoard kind).stall = system.stall := rfl

theorem stall_mapPpu (system : System) (f : Ppu → Ppu) : (system.mapPpu f).stall = system.stall :=
  rfl

theorem stall_pressReset (system : System) : system.pressReset.stall = system.stall := rfl

theorem stall_readIo (system : System) (addr : UInt16) :
    (system.readIo addr).2.stall = system.stall := by
  unfold readIo
  dsimp only
  split
  · rfl
  · split
    · rfl
    · split <;> rfl

theorem stall_access (system : System) (addr : UInt16) :
    (system.access addr).2.stall = system.stall := by
  unfold access
  split
  · rfl
  · rw [askPpu_snd, stall_mapPpu]
  · exact stall_readIo system addr
  · rfl
  · rfl
  · rfl

/-- A read costs nothing. -/
theorem stall_read (system : System) (addr : UInt16) :
    (system.read addr).2.stall = system.stall := stall_access system addr

theorem stall_readFrom (system : System) (addr : UInt16) (out : Bytes) (count : Nat) :
    (system.readFrom addr out count).2.stall = system.stall := by
  induction count generalizing system addr out with
  | zero => rfl
  | succ count ih => exact (ih _ _ _).trans (stall_read system addr)

theorem stall_spriteDma (system : System) (page : UInt8) :
    (system.spriteDma page).stall = system.stall + spriteDmaCycles := by
  have hread := stall_readFrom system (page.toUInt16 * 256) (Array.mkEmpty 256) 256
  unfold spriteDma
  -- the 256 reads stay closed from here on
  generalize system.readFrom (page.toUInt16 * 256) (Array.mkEmpty 256) 256 = result at hread ⊢
  obtain ⟨bytes, middle⟩ := result
  show middle.stall + spriteDmaCycles = system.stall + spriteDmaCycles
  rw [hread]

/-- Only a write to the sprite DMA register costs anything. -/
theorem stall_write (system : System) {addr : UInt16} (h : addr ≠ spriteDmaAddress)
    (data : UInt8) : (system.write addr data).stall = system.stall := by
  unfold write
  dsimp only
  split
  · rfl
  · split
    · rfl
    · rfl
    · unfold writeIo
      rw [if_neg h]
      split <;> rfl
    · rfl
    · rfl
    · rfl

theorem stall_write_le (system : System) (addr : UInt16) (data : UInt8) :
    (system.write addr data).stall ≤ system.stall + spriteDmaCycles := by
  by_cases h : addr = spriteDmaAddress
  · subst h
    unfold write
    rw [if_neg (by decide)]
    split
    · exact Nat.le_add_right _ _
    · exact Nat.le_add_right _ _
    · unfold writeIo
      rw [if_pos rfl, stall_spriteDma]
      exact Nat.le_refl _
    · exact Nat.le_add_right _ _
    · exact Nat.le_add_right _ _
    · exact Nat.le_add_right _ _
  · rw [stall_write system h data]
    exact Nat.le_add_right _ _

/-- The sprite DMA register is not in the stack page. -/
theorem push_ne_spriteDma (s : UInt8) : stackPage + s.toUInt16 ≠ spriteDmaAddress := by
  have hs : s.toNat < 256 := s.toNat_lt
  intro h
  have hnat := congrArg UInt16.toNat h
  rw [UInt16.toNat_add, UInt8.toNat_toUInt16, stackPage, spriteDmaAddress] at hnat
  simp at hnat
  omega

/-- Each byte stored outside the stack page costs the time of a sprite DMA at most. -/
theorem stall_trail {a b : System} {pushes stores : Nat} (h : Bus.Trail a pushes stores b) :
    b.stall ≤ a.stall + spriteDmaCycles * stores := by
  induction h with
  | refl => exact Nat.le_add_right _ _
  | @read _ _ bus _ addr ih =>
    show (bus.read addr).2.stall ≤ _
    rw [stall_read]
    exact ih
  | @takeNmi _ _ bus _ ih => exact ih
  | @push _ _ bus _ s value ih =>
    show (bus.write (stackPage + s.toUInt16) value).stall ≤ _
    rw [stall_write bus (push_ne_spriteDma s)]
    exact ih
  | @store _ stores bus _ addr value ih =>
    have hwrite := stall_write_le bus addr value
    show (bus.write addr value).stall ≤ _
    rw [Nat.mul_succ]
    omega

end System

/-! ## Scanlines -/

namespace Machine

/-- Nothing is left to wait for, and the surplus is one that a scanline can leave. -/
structure OnTime (m : Machine System) : Prop where
  stall_eq : m.bus.stall = 0
  cycles_le : m.cpu.cycles ≤ surplusLimit

/-- No lap waits longer than for one sprite DMA. -/
theorem Laps.prompt {m last : Machine System} {laps : List Lap} (h : m.Laps laps last)
    (idle : m.bus.stall = 0) : (∀ lap ∈ laps, lap.stall ≤ waitLimit) ∧ last.bus.stall = 0 := by
  induction h with
  | full => exact ⟨by simp, idle⟩
  | @lap m _ _ _ _ ih =>
    obtain ⟨hlaps, hlast⟩ := ih rfl
    refine ⟨List.forall_mem_cons.mpr ⟨?_, hlaps⟩, hlast⟩
    have hstep := System.stall_trail (trail_step m)
    rw [idle] at hstep
    exact hstep

/-- Nor does any over a number of scanlines, if nothing else makes the CPU wait. -/
theorem Scanlines.prompt {m last : Machine System} {turnovers : List (Turnover System)}
    {laps : List Lap} (h : m.Scanlines turnovers laps last) (idle : m.bus.stall = 0)
    (others : ∀ turnover ∈ turnovers, ∀ system : System, system.stall = 0 →
      (turnover.bus system).stall = 0) :
    (∀ lap ∈ laps, lap.stall ≤ waitLimit) ∧ last.bus.stall = 0 := by
  induction h with
  | nil => exact ⟨by simp, idle⟩
  | cons line _ ih =>
    obtain ⟨hfirst, hothers⟩ := List.forall_mem_cons.mp others
    obtain ⟨hline, hmid⟩ := line.prompt (hfirst _ idle)
    obtain ⟨hlater, hlast⟩ := ih hmid hothers
    exact ⟨List.forall_mem_append.mpr ⟨hline, hlater⟩, hlast⟩

variable {m : Machine System}

/-- A scanline keeps the CPU in time. -/
theorem OnTime.runLine (h : m.OnTime) (line : UInt16) : (m.runLine line).OnTime := by
  obtain ⟨laps, last, hlaps, _⟩ := exists_laps (m.beginLine line)
  obtain ⟨hprompt, hidle⟩ := hlaps.prompt h.stall_eq
  rw [hlaps.runLine_eq]
  exact ⟨hidle, hlaps.surplus_le h.cycles_le hprompt⟩

/-- So does starting over. -/
theorem onTime_reset (idle : m.bus.stall = 0) (kind : ResetKind) : (m.reset kind).OnTime := by
  have hnone : Work m 0 0 m := .refl m
  have hread := (work_readWord hnone resetVector).trail
  have hstall := System.stall_trail hread
  rw [idle] at hstall
  refine ⟨Nat.le_zero.mp hstall, ?_⟩
  rw [(reset_clock m kind).1]
  exact Nat.zero_le _

end Machine

namespace Scan

theorem onTime_draw {scan : Scan} (h : scan.machine.OnTime) (line : Nat) :
    (scan.draw line).machine.OnTime := by
  have hvblank : (if line = vblankLine then scan.machine.bus.vblank
      else scan.machine.bus).stall = 0 := by
    split <;> exact h.stall_eq
  exact ⟨hvblank, h.cycles_le⟩

theorem onTime_line {scan : Scan} (h : scan.machine.OnTime) (line : Nat) :
    (scan.line line).machine.OnTime := by
  have hcompute : ((scan.draw line).compute line).machine.OnTime :=
    (onTime_draw h line).runLine (UInt16.ofNat line)
  unfold Scan.line
  dsimp only
  split
  · exact ⟨hcompute.stall_eq, hcompute.cycles_le⟩
  · exact hcompute

/-- A whole frame keeps the CPU in time. -/
theorem onTime_frame {scan : Scan} (h : scan.machine.OnTime) : scan.frame.machine.OnTime := by
  unfold frame
  induction List.range frameLines generalizing scan with
  | nil => exact h
  | cons line lines ih => exact ih (onTime_line h line)

end Scan

/-! ## Requests -/

namespace Console

/-- The console's CPU is in time between the requests. -/
structure OnTime (console : Console) : Prop where
  stall_eq : console.hardware.io.stall = 0
  cycles_le : console.cpu.cycles ≤ surplusLimit

section
variable {console : Console}

theorem onTime_install (console : Console) {machine : Machine System} (h : machine.OnTime) :
    (console.install machine).OnTime := ⟨h.stall_eq, h.cycles_le⟩

theorem onTime_switchedOn (cpu : Cpu) (cartridge : Cartridge) :
    (switchedOn cpu cartridge).OnTime := by
  have hboard : ((System.plugged {} cartridge).initBoard .power).stall = 0 :=
    System.stall_initBoard _ .power
  exact Machine.onTime_reset (m := ⟨cpu, _⟩) hboard .power

theorem onTime_powerOn (console : Console) (cartridge : Cartridge) :
    (console.powerOn cartridge).2.OnTime := by
  have hreset := onTime_switchedOn console.cpu cartridge
  rw [powerOn_eq]
  exact ⟨hreset.stall_eq, hreset.cycles_le⟩

theorem OnTime.pressReset (h : console.OnTime) : console.pressReset.2.OnTime := by
  cases hc : console.cartridge with
  | none =>
    rw [pressReset_none hc]
    exact ⟨h.stall_eq, h.cycles_le⟩
  | some cartridge =>
    have hbutton : (System.plugged console.hardware cartridge).pressReset.stall = 0 :=
      (System.stall_pressReset _).trans h.stall_eq
    have hreset : (startedOver console.cpu console.hardware cartridge).OnTime :=
      Machine.onTime_reset (m := ⟨console.cpu, _⟩) hbutton .soft
    rw [pressReset_some hc]
    exact ⟨hreset.stall_eq, hreset.cycles_le⟩

theorem OnTime.emulate (h : console.OnTime) (buttons : UInt8 × UInt8) (drawn : Bool) :
    (console.emulate buttons drawn).2.OnTime := by
  cases hc : console.cartridge with
  | none =>
    rw [emulate_none hc]
    exact ⟨h.stall_eq, h.cycles_le⟩
  | some cartridge =>
    have hbuttons : Machine.OnTime ⟨console.cpu,
        (System.plugged console.hardware cartridge).mapIo (·.setButtons buttons)⟩ :=
      ⟨h.stall_eq, h.cycles_le⟩
    have hopening :
        (opening console.cpu console.hardware cartridge buttons drawn).machine.OnTime := hbuttons
    rw [emulate_some hc]
    exact onTime_install console (Scan.onTime_frame hopening)

theorem OnTime.playCounted (h : console.OnTime) (buttons : UInt8 × UInt8) (drawn : Bool) :
    (console.playCounted buttons drawn).2.OnTime := by
  let counted : Console :=
    { console with skipped := if drawn then 0 else console.skipped + 1 }
  have hcounted : counted.OnTime := ⟨h.stall_eq, h.cycles_le⟩
  have hemulate := hcounted.emulate buttons drawn
  obtain ⟨schedule, hend⟩ := endFrame_snd (counted.emulate buttons drawn).2
  show (counted.emulate buttons drawn).2.endFrame.2.OnTime
  rw [hend]
  exact ⟨hemulate.stall_eq, hemulate.cycles_le⟩

theorem OnTime.ready (h : console.OnTime) {files : Files} {journal : Journal} {start : Console}
    (ready : console.ready? files = some (journal, start)) : start.OnTime := by
  obtain ⟨cartridge, _, _, _, hon⟩ | ⟨_, hreset⟩ | ⟨_, _, rfl⟩ := ready_cases ready
  · have hstart := onTime_powerOn console cartridge
    rw [hon] at hstart
    exact hstart
  · have hstart := h.pressReset
    rw [hreset] at hstart
    exact hstart
  · exact h

theorem OnTime.acceptStorage (h : console.OnTime) (bytes : Bytes) :
    (console.acceptStorage bytes).OnTime := by
  unfold Console.acceptStorage
  split
  · split <;> exact ⟨h.stall_eq, h.cycles_le⟩
  · exact h

/-- Every request keeps the CPU in time. -/
theorem OnTime.take (h : console.OnTime) (turn : Turn) : (console.take turn).2.OnTime := by
  have hreaction := take_reaction console turn
  generalize console.take turn = result at hreaction
  cases hreaction with
  | halted | waits | fails => exact h
  | loads => exact onTime_powerOn console _
  | drops _ ready => exact h.ready ready
  | plays _ ready => exact (h.ready ready).playCounted _ _
  | presses | chooses => exact ⟨h.stall_eq, h.cycles_le⟩
  | stops =>
    obtain ⟨schedule, hstop⟩ := shutDown_snd console
    rw [hstop]
    exact ⟨h.stall_eq, h.cycles_le⟩
  | accepts => exact h.acceptStorage _

end

/-- The CPU is in time after every sequence of requests to a new console. -/
theorem onTime_after (registry : Registry) (turns : List Turn) :
    (({ registry } : Console).after turns).OnTime := by
  have hnew : ({ registry } : Console).OnTime := ⟨rfl, Nat.zero_le _⟩
  exact after_keeps (P := OnTime) (fun _ turn h => h.take turn) hnew turns

end Console

/-! ## Any bus, and this one -/

namespace Machine

/-- A scanline ends after `lineSteps` steps at most, of which no two in a row are free, and none
    takes more than 20 cycles. On a bus that makes no step wait longer than `waitLimit`, no sum
    of cycles needs more than 32 bits, and the surplus stays within its limit. Over any number of
    scanlines without a reset, the cycles taken and those of the lines differ by the surplus
    alone. The console's bus makes no step wait longer. -/
theorem keeps_time {σ : Type} [Bus σ] (m : Machine σ) (surplus : m.cpu.cycles ≤ surplusLimit) :
    (∀ line, ∃ laps last, (m.beginLine line).Laps laps last ∧ m.runLine line = last.endLine ∧
      laps.length ≤ lineSteps ∧
      laps.IsChain (fun lap next => lap.spent ≠ 0 ∨ next.spent ≠ 0) ∧
      (∀ lap ∈ laps, lap.spent ≤ 20) ∧ lineCycles ≤ last.cpu.cycles ∧
      ((∀ lap ∈ laps, lap.stall ≤ waitLimit) →
        (∀ lap ∈ laps, lap.cycles < 2 ^ 32 ∧ lap.count + lap.cycles < 2 ^ 32) ∧
        (m.runLine line).cpu.cycles ≤ surplusLimit)) ∧
    (∀ turnovers, m.cpu.pending ≠ .reset → (∀ turnover ∈ turnovers, .reset ∉ turnover.requests) →
      ∃ laps last, m.Scanlines turnovers laps last ∧
        last = turnovers.foldl (fun m turnover =>
          Machine.runLine ⟨turnover.requests.foldl Cpu.request m.cpu, turnover.bus m.bus⟩
            turnover.line) m ∧
        laps.IsChain (fun lap next => lap.spent ≠ 0 ∨ next.spent ≠ 0) ∧
        m.cpu.cycles + (laps.map Lap.cycles).sum =
          lineCycles * turnovers.length + last.cpu.cycles ∧
        ((∀ lap ∈ laps, lap.stall ≤ waitLimit) → last.cpu.cycles ≤ surplusLimit)) ∧
    ∀ (console last : Machine System) (turnovers : List (Turnover System)) (laps : List Lap),
      console.bus.stall = 0 →
      (∀ turnover ∈ turnovers, ∀ system : System, system.stall = 0 →
        (turnover.bus system).stall = 0) →
      console.Scanlines turnovers laps last →
        (∀ lap ∈ laps, lap.stall ≤ waitLimit) ∧ last.bus.stall = 0 := by
  refine ⟨fun line => ?_, fun turnovers noReset requests => ?_,
    fun _ _ _ _ idle others h => h.prompt idle others⟩
  · obtain ⟨laps, last, hlaps, _⟩ := exists_laps (m.beginLine line)
    refine ⟨laps, last, hlaps, hlaps.runLine_eq, hlaps.length_le, hlaps.isChain, hlaps.spent_le,
      hlaps.lineCycles_le, fun prompt => ⟨fun lap hlap => ?_, ?_⟩⟩
    · have hcount := hlaps.counts_lt lap hlap (prompt lap hlap)
      unfold lineCycles waitLimit at hcount
      omega
    · rw [hlaps.runLine_eq]
      exact hlaps.surplus_le surplus prompt
  · obtain ⟨laps, last, hlines⟩ := exists_scanlines m turnovers
    exact ⟨laps, last, hlines, hlines.eq_foldl, hlines.isChain, hlines.total noReset requests,
      hlines.surplus_le surplus⟩

/-- The first frame of the console's CPU, with the board's share of each line. -/
theorem keeps_time_of_switchedOn :
    let m := Console.switchedOn {} default
    let frame : List (Turnover System) :=
      (List.range 262).map fun line => { line := .ofNat line, bus := (·.hblank line) }
    m.cpu.cycles ≤ surplusLimit ∧ ∃ laps last, m.Scanlines frame laps last ∧
      (laps.map Lap.cycles).sum = 114 * 262 + last.cpu.cycles ∧
      last.cpu.cycles ≤ surplusLimit := by
  intro m frame
  have hon : m.OnTime := Console.onTime_switchedOn {} default
  have hclock : m.cpu.cycles = 0 ∧ m.cpu.pending = .none := reset_clock _ .power
  clear_value m
  obtain ⟨_, hframe, hprompt⟩ := keeps_time m hon.cycles_le
  have hpending : m.cpu.pending ≠ .reset := by
    rw [hclock.2]
    decide
  obtain ⟨laps, last, hlines, _, _, hsum, hsurplus⟩ := hframe frame hpending (by simp [frame])
  have hwaits : ∀ lap ∈ laps, lap.stall ≤ waitLimit := by
    refine (hprompt m last frame laps hon.stall_eq ?_ hlines).1
    intro turnover hturnover system idle
    obtain ⟨line, _, rfl⟩ := List.mem_map.mp hturnover
    exact idle
  refine ⟨hon.cycles_le, laps, last, hlines, ?_, hsurplus hwaits⟩
  have hlines262 : frame.length = 262 := by simp [frame]
  rw [hclock.1, hlines262] at hsum
  unfold lineCycles at hsum
  omega

end Machine
end Nes
