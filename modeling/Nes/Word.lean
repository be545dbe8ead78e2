/-
  Bytes and words: the two halves of a 16-bit word, the single bits of a byte, and numbers that
  start over after a last one.
-/

namespace Nes

/-- The 16-bit word with low byte `lo` and high byte `hi`. -/
@[inline] def word (lo hi : UInt8) : UInt16 := lo.toUInt16 + hi.toUInt16 * 256

/-- The low byte of a word. -/
@[inline] def lowByte (w : UInt16) : UInt8 := w.toUInt8

/-- The high byte of a word. -/
@[inline] def highByte (w : UInt16) : UInt8 := (w / 256).toUInt8

/-- Bit `i` of a byte. -/
@[inline] def bit (b : UInt8) (i : Nat) : Bool := b.toNat.testBit i

/-- The top bit of a byte, its sign in two's complement. -/
@[inline] def signBit (b : UInt8) : Bool := 0x80 ≤ b

/-- A number folded into the numbers up to `n`. -/
@[inline] def wrap {n : Nat} (i : Nat) : Fin (n + 1) :=
  ⟨i % (n + 1), Nat.mod_lt i (Nat.succ_pos n)⟩

theorem val_wrap {n : Nat} (i : Nat) : (wrap i : Fin (n + 1)).val = i % (n + 1) := rfl

theorem toNat_word (lo hi : UInt8) : (word lo hi).toNat = lo.toNat + hi.toNat * 256 := by
  have h₁ := lo.toNat_lt
  have h₂ := hi.toNat_lt
  simp [word]
  omega

theorem toNat_lowByte (w : UInt16) : (lowByte w).toNat = w.toNat % 256 := by
  simp [lowByte]

theorem toNat_highByte (w : UInt16) : (highByte w).toNat = w.toNat / 256 := by
  have h := w.toNat_lt
  simp [highByte]
  omega

/-- A word is put together again from its two halves. -/
theorem word_halves (w : UInt16) : word (lowByte w) (highByte w) = w := by
  apply UInt16.toNat_inj.mp
  rw [toNat_word, toNat_lowByte, toNat_highByte]
  omega

theorem lowByte_word (lo hi : UInt8) : lowByte (word lo hi) = lo := by
  apply UInt8.toNat_inj.mp
  have h := lo.toNat_lt
  rw [toNat_lowByte, toNat_word]
  omega

theorem highByte_word (lo hi : UInt8) : highByte (word lo hi) = hi := by
  apply UInt8.toNat_inj.mp
  have h := lo.toNat_lt
  rw [toNat_highByte, toNat_word]
  omega

end Nes
