/-
  The SHA-1 digest of a byte string. A cartridge file is named by it in storage.
-/
import Nes.Bytes
import Nes.Text.Hex

namespace Nes.Digest

/-- The five chaining words. -/
structure Sha1State where
  a : UInt32
  b : UInt32
  c : UInt32
  d : UInt32
  e : UInt32

namespace Sha1State

/-- The state before the first block. -/
def initial : Sha1State where
  a := 0x67452301
  b := 0xefcdab89
  c := 0x98badcfe
  d := 0x10325476
  e := 0xc3d2e1f0

/-- Word by word sum. -/
def add (s t : Sha1State) : Sha1State where
  a := s.a + t.a
  b := s.b + t.b
  c := s.c + t.c
  d := s.d + t.d
  e := s.e + t.e

end Sha1State

/-- Rotation to the left by `n` places, `0 < n < 32`. -/
@[inline] def rotateLeft (x : UInt32) (n : UInt32) : UInt32 := x <<< n ||| x >>> (32 - n)

/-- The big-endian word at byte `i`. -/
def wordAt (bytes : Bytes) (i : Nat) : UInt32 :=
  (bytes.getD i 0).toUInt32 <<< 24 ||| (bytes.getD (i + 1) 0).toUInt32 <<< 16 |||
    (bytes.getD (i + 2) 0).toUInt32 <<< 8 ||| (bytes.getD (i + 3) 0).toUInt32

/-- Extends a message schedule by `count` words. -/
def extendSchedule (w : Array UInt32) : (count : Nat) → Array UInt32
  | 0 => w
  | count + 1 =>
    let t := w.size
    let x := w.getD (t - 3) 0 ^^^ w.getD (t - 8) 0 ^^^ w.getD (t - 14) 0 ^^^ w.getD (t - 16) 0
    extendSchedule (w.push (rotateLeft x 1)) count

/-- The eighty schedule words of the block that starts at byte `start`. -/
def schedule (bytes : Bytes) (start : Nat) : Array UInt32 :=
  extendSchedule ((Array.range 16).map fun i => wordAt bytes (start + 4 * i)) 64

/-- The round function and constant of round `t`. -/
@[inline] def mixer (t : Nat) (b c d : UInt32) : UInt32 :=
  if t < 20 then ((b &&& c) ||| (~~~b &&& d)) + 0x5a827999
  else if t < 40 then (b ^^^ c ^^^ d) + 0x6ed9eba1
  else if t < 60 then ((b &&& c) ||| (b &&& d) ||| (c &&& d)) + 0x8f1bbcdc
  else (b ^^^ c ^^^ d) + 0xca62c1d6

/-- Runs `count` rounds, the first of them round `t`. -/
def rounds (w : Array UInt32) (s : Sha1State) (t : Nat) : (count : Nat) → Sha1State
  | 0 => s
  | count + 1 =>
    let a := rotateLeft s.a 5 + mixer t s.b s.c s.d + s.e + w.getD t 0
    rounds w { a, b := s.a, c := rotateLeft s.b 30, d := s.c, e := s.d } (t + 1) count

/-- Takes in `count` blocks of 64 bytes, the first of them at byte `start`. -/
def absorb (bytes : Bytes) (s : Sha1State) (start : Nat) : (count : Nat) → Sha1State
  | 0 => s
  | count + 1 => absorb bytes (s.add (rounds (schedule bytes start) s 0 80)) (start + 64) count

/-- The message followed by a one bit, zeros and its length in bits, in whole blocks. -/
def padded (bytes : Bytes) : Bytes :=
  let length := bytes.size * 8
  let marked := bytes.push 0x80
  let filled := marked ++ Bytes.zeros ((64 - (marked.size + 8) % 64) % 64)
  filled ++ (Array.range 8).map fun i => UInt8.ofNat (length >>> (8 * (7 - i)))

/-- The digest as forty hexadecimal digits in lower case. -/
def sha1 (bytes : Bytes) : String :=
  let message := padded bytes
  let s := absorb message Sha1State.initial 0 (message.size / 64)
  String.join ([s.a, s.b, s.c, s.d, s.e].map fun x => Text.lowerHex 8 x.toNat)

end Nes.Digest
