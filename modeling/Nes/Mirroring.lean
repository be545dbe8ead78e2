/-
  Nametable mirroring: which physical table stands behind each of the four logical ones.
-/

namespace Nes

/-- Arrangement of the nametables, wired or switched by the cartridge board. -/
inductive Mirroring
  /-- The upper pair shares the first table, the lower pair the second. -/
  | horizontal
  /-- The left pair shares the first table, the right pair the second. -/
  | vertical
  /-- All four share the first table. -/
  | lower
  /-- All four share the second table. -/
  | upper
  /-- Every table is distinct; the cartridge supplies the extra memory. -/
  | fourScreen
deriving DecidableEq, Inhabited

namespace Mirroring

/-- Numeric codes of the arrangements. -/
def ofCode? (code : UInt8) : Option Mirroring :=
  match code.toNat with
  | 0 => some horizontal
  | 1 => some vertical
  | 2 => some lower
  | 3 => some upper
  | 4 => some fourScreen
  | _ => none

/-- Physical table behind each logical table. -/
def layout : Mirroring → Vector (Fin 4) 4
  | horizontal => #v[0, 0, 1, 1]
  | vertical => #v[0, 1, 0, 1]
  | lower => #v[0, 0, 0, 0]
  | upper => #v[1, 1, 1, 1]
  | fourScreen => #v[0, 1, 2, 3]

end Mirroring
end Nes
