/-
  Where saves are kept between sessions.

  From the console's side storage never fails: what is not there reads as zeros, and a save that
  cannot be written is lost without a word.
-/
import Nes.Bytes

namespace Nes

/-- Storage for saves. -/
class Storage (σ : Type) where
  /-- The `size` bytes kept under a key. -/
  load : σ → String → (size : Nat) → Bytes
  /-- Keeps bytes under a key. -/
  save : σ → String → Bytes → σ

/-- Saves that are kept as long as the program runs; every key occurs once. -/
structure MemoryStorage where
  entries : List (String × Bytes) := []
deriving DecidableEq, Inhabited

namespace MemoryStorage

/-- What is kept under a key. -/
def get? (storage : MemoryStorage) (key : String) : Option Bytes := storage.entries.lookup key

/-- Keeps bytes under a key, in place of what was there. -/
def insert (storage : MemoryStorage) (key : String) (data : Bytes) : MemoryStorage :=
  ⟨(key, data) :: storage.entries.filter (·.1 != key)⟩

/-- How many keys there are. -/
def size (storage : MemoryStorage) : Nat := storage.entries.length

def isEmpty (storage : MemoryStorage) : Bool := storage.entries.isEmpty

instance : Storage MemoryStorage where
  load storage key size := ((storage.get? key).getD #[]).resize size 0
  save storage key data := storage.insert key data

end MemoryStorage
end Nes
