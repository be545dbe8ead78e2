/-
  The delta modulation channel: plays a sample from CPU memory, one bit at a time.
-/
import Nes.Apu.Timer
import Nes.Word

namespace Nes

/-- The delta modulation channel. -/
structure Dmc where
  /-- The end of the sample raises an IRQ. -/
  irqEnabled : Bool := false
  /-- The sample starts over at its end. -/
  looping : Bool := false
  rateIndex : Fin 16 := wrap 0
  /-- Output level of seven bits. -/
  level : Nat := 0
  sampleAddress : UInt16 := 0xC000
  sampleLength : Nat := 1
  /-- Where the next byte is. -/
  address : UInt16 := 0xC000
  /-- Bytes still to be fetched. -/
  remaining : Nat := 0
  /-- The byte that is played, next bit lowest. -/
  shift : UInt8 := 0
  bitsLeft : Nat := 0
  /-- No byte is played. -/
  silence : Bool := true
  irq : Bool := false
  timer : SampleTimer := {}
deriving DecidableEq, Inhabited

namespace Dmc

/-- Cycles per bit. -/
def rates : Vector Nat 16 := #v[
  428, 380, 340, 320, 286, 254, 226, 214, 190, 160, 142, 128, 106, 84, 72, 54]

/-- A write to the control register. -/
def writeControl (d : Dmc) (value : UInt8) : Dmc :=
  { d with
    irqEnabled := bit value 7
    looping := bit value 6
    rateIndex := wrap value.toNat
    irq := d.irq && bit value 7 }

/-- Sets the output level. -/
def writeLevel (d : Dmc) (value : UInt8) : Dmc := { d with level := value.toNat % 128 }

/-- Chooses the start of the sample in units of 64 bytes. -/
def writeAddress (d : Dmc) (value : UInt8) : Dmc :=
  { d with sampleAddress := 0xC000 + value.toUInt16 * 64 }

/-- Chooses the length of the sample in units of 16 bytes. -/
def writeLength (d : Dmc) (value : UInt8) : Dmc :=
  { d with sampleLength := value.toNat * 16 + 1 }

/-- Goes to the start of the sample. -/
def restart (d : Dmc) : Dmc :=
  { d with address := d.sampleAddress, remaining := d.sampleLength }

/-- Switches the channel on or off. A sample that is still played goes on. -/
def setEnabled (d : Dmc) (enabled : Bool) : Dmc :=
  let d := { d with irq := false }
  if !enabled then { d with remaining := 0 }
  else if d.remaining = 0 then d.restart
  else d

/-- Whether bytes are still to be fetched. -/
@[inline] def active (d : Dmc) : Bool := 0 < d.remaining

/-- The address after another one; past the last comes $8000. -/
def following (addr : UInt16) : UInt16 := if addr = 0xFFFF then 0x8000 else addr + 1

/-- Takes over a fetched byte and counts it. -/
def accept (d : Dmc) (value : UInt8) : Dmc :=
  let d := { d with
    bitsLeft := 8, shift := value, silence := false
    address := following d.address, remaining := d.remaining - 1 }
  if d.remaining = 0 then
    if d.looping then d.restart else { d with irq := d.irq || d.irqEnabled }
  else d

/-- Plays one bit: the level moves by two if that keeps it within its range. -/
def playBit (d : Dmc) : Dmc :=
  let level :=
    if d.silence then d.level
    else if bit d.shift 0 then (if d.level ≤ 125 then d.level + 2 else d.level)
    else (if 2 ≤ d.level then d.level - 2 else d.level)
  { d with level, shift := d.shift >>> 1, bitsLeft := d.bitsLeft - 1 }

/-- Plays `count` bits. A byte is fetched through `reader` whenever eight bits are played; the
    addresses are added to `fetched`. -/
def playBits (reader : UInt16 → UInt8) (d : Dmc) (fetched : Array UInt16) :
    (count : Nat) → Array UInt16 × Dmc
  | 0 => (fetched, d)
  | count + 1 =>
    if d.bitsLeft = 0 then
      if d.active then
        playBits reader (d.accept (reader d.address)).playBit (fetched.push d.address) count
      else playBits reader { d with bitsLeft := 8, silence := true }.playBit fetched count
    else playBits reader d.playBit fetched count

/-- What a slice gives: levels, and the addresses that were read. -/
structure Played where
  levels : Array Nat := #[]
  fetched : Array UInt16 := #[]

/-- Takes `count` samples, after those in `out`. -/
def takeLevels (reader : UInt16 → UInt8) (d : Dmc) (out : Played) : (count : Nat) → Played × Dmc
  | 0 => (out, d)
  | count + 1 =>
    let (steps, timer) := d.timer.tick (rates.get d.rateIndex)
    let (fetched, d) := playBits reader { d with timer } out.fetched steps
    takeLevels reader d { levels := out.levels.push d.level, fetched } count

/-- The levels of one slice. -/
def slice (d : Dmc) (reader : UInt16 → UInt8) : Played × Dmc :=
  takeLevels reader d {} sliceSamples

end Dmc
end Nes
