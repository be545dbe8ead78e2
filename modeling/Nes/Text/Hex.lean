/-
  Numbers as hexadecimal text of a fixed width.
-/

namespace Nes.Text

/-- The digit of a number below sixteen, letters in lower case. -/
def lowerDigit (n : Nat) : Char := Nat.digitChar n

/-- The digit of a number below sixteen, letters in upper case. -/
def upperDigit (n : Nat) : Char := (Nat.digitChar n).toUpper

/-- The last `width` hexadecimal digits of `n`, most significant first. -/
def hexDigits (digit : Nat → Char) : (width n : Nat) → List Char
  | 0, _ => []
  | width + 1, n => hexDigits digit width (n / 16) ++ [digit (n % 16)]

/-- `width` digits in lower case. -/
def lowerHex (width n : Nat) : String := String.ofList (hexDigits lowerDigit width n)

/-- `width` digits in upper case. -/
def upperHex (width n : Nat) : String := String.ofList (hexDigits upperDigit width n)

end Nes.Text
