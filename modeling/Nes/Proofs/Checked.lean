/-
  Arithmetic of fixed width that does not go on when a result does not fit.

  The chips compute with natural numbers, which neither overflow nor underflow. Beside their
  functions stand checked ones, whose every addition, subtraction, multiplication, division, shift
  and access to a table is one of the operations below, at the width of the register that holds the
  result. Where a checked function gives `some` result, nothing went out of its range on the way.
-/

namespace Nes.Checked

/-- The largest number of 8 bits. -/
def byteTop : Nat := 0xFF

/-- The largest number of 16 bits. -/
def wordTop : Nat := 0xFFFF

/-- The largest number of 32 bits. -/
def longTop : Nat := 0xFFFFFFFF

/-- A sum that must not exceed `top`. -/
def add? (top a b : Nat) : Option Nat := if a + b ≤ top then some (a + b) else none

/-- A difference that must not fall below zero. -/
def sub? (a b : Nat) : Option Nat := if b ≤ a then some (a - b) else none

/-- A product that must not exceed `top`. -/
def mul? (top a b : Nat) : Option Nat := if a * b ≤ top then some (a * b) else none

/-- Quotient and remainder of a division, not by zero. -/
def divMod? (a b : Nat) : Option (Nat × Nat) := if b = 0 then none else some (a / b, a % b)

/-- A shift to the right by less than the width. -/
def shiftRight? (width a count : Nat) : Option Nat :=
  if count < width then some (a >>> count) else none

/-- A store into a table. There is no place past its end. -/
def set? {A : Type} {n : Nat} (table : Vector A n) (i : Nat) (value : A) : Option (Vector A n) :=
  if h : i < n then some (table.set i value) else none

variable {top a b : Nat}

theorem add?_eq (h : a + b ≤ top) : add? top a b = some (a + b) := if_pos h

theorem sub?_eq (h : b ≤ a) : sub? a b = some (a - b) := if_pos h

theorem mul?_eq (h : a * b ≤ top) : mul? top a b = some (a * b) := if_pos h

theorem divMod?_eq (h : 0 < b) : divMod? a b = some (a / b, a % b) :=
  if_neg (Nat.pos_iff_ne_zero.mp h)

theorem shiftRight?_eq {width count : Nat} (h : count < width) :
    shiftRight? width a count = some (a >>> count) := if_pos h

theorem set?_eq {A : Type} {n i : Nat} (table : Vector A n) (h : i < n) (value : A) :
    set? table i value = some (table.set i value) := dif_pos h

/-- A computation goes on with the result of its first step. -/
theorem bind_some {A B : Type} {step : Option A} {result : A} {next : A → Option B}
    (h : step = some result) : (step >>= next) = next result := by
  rw [h]
  rfl

/-- A list whose every entry is found by a computation that does not fail. -/
theorem mapM_eq_map {A B : Type} {f? : A → Option B} {f : A → B} {list : List A}
    (h : ∀ entry ∈ list, f? entry = some (f entry)) : list.mapM f? = some (list.map f) := by
  induction list with
  | nil => rfl
  | cons entry list ih =>
    have hentry := h entry List.mem_cons_self
    have hlist := ih fun other hother => h other (List.mem_cons_of_mem _ hother)
    rw [List.mapM_cons, hentry, hlist]
    rfl

end Nes.Checked
