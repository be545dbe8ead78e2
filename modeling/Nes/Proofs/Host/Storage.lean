/-
  What a host's storage owes a console: it gives back what was saved last, and zeros where
  nothing was saved.

  `Storage.Keeps` says so of one key. Storage in memory keeps every key (`MemoryStorage.keeps`).
  A directory keeps the file of a cartridge if the first write succeeds
  (`SaveDirectory.keeps`): a file that was written is found again, because writing it changes
  nothing on the way there (`resolve_put`), and the next write succeeds as well, because the
  directory is not made a second time (`makeDirectories_write`).
-/
import Nes.Host.SaveDirectory
import Nes.Proofs.Board.Patterns
import Nes.Save.Ram

namespace Nes

/-! ## Save RAM and stored images -/

theorem Bytes.resize_size (bytes : Bytes) (filler : UInt8) :
    bytes.resize bytes.size filler = bytes := by
  unfold resize
  rw [Nat.sub_self, Array.replicate_zero, Array.append_empty, Array.extract_size]

theorem SaveRam.size_bytes (save : SaveRam) : save.bytes.size = saveSize := by
  unfold bytes Ram.bytes
  exact save.ram.cells.size_toArray

/-- A stored image is taken over filled with zeros or cut to size. -/
theorem SaveRam.bytes_load_resize (save : SaveRam) (bytes : Bytes) :
    (save.load bytes).bytes = bytes.resize saveSize 0 := by
  apply Array.ext_getElem?
  intro i
  by_cases hi : i < saveSize
  · have hcopy := getElem?_copyInto (Ram.blank saveSize).cells 0 bytes 0 bytes.size hi (by omega)
    have hblank : (Ram.blank saveSize).cells[i]? = some 0 := by
      unfold Ram.blank
      rw [Vector.getElem?_replicate, if_pos hi]
    have hload : (save.load bytes).bytes[i]? = if i < bytes.size then bytes[i]? else some 0 := by
      unfold SaveRam.bytes SaveRam.load Ram.bytes Ram.load
      dsimp only
      rw [Vector.getElem?_toArray, hcopy, hblank]
      simp
    rw [hload]
    unfold Bytes.resize
    by_cases hin : i < bytes.size
    · rw [if_pos hin, Array.getElem?_append_left (by simp; omega), Array.getElem?_extract_of_lt]
      · simp
      · omega
    · rw [if_neg hin, Array.getElem?_append_right (by simp; omega), Array.getElem?_replicate,
        if_pos (by simp; omega)]
  · have hload := (save.load bytes).size_bytes
    have hresize := bytes.size_resize saveSize 0
    rw [Array.getElem?_eq_none (by omega), Array.getElem?_eq_none (by omega)]

/-- One of full size is taken over as it is. -/
theorem SaveRam.bytes_load (save : SaveRam) {bytes : Bytes} (full : bytes.size = saveSize) :
    (save.load bytes).bytes = bytes := by
  rw [bytes_load_resize, ← full]
  exact bytes.resize_size 0

/-! ## Storage that keeps a key -/

/-- Storage that gives back what was saved last under a key, as long as it is `sound`; `kept` is
    what it holds. -/
structure Storage.Keeps {σ : Type} [Storage σ] (key : String) (kept : σ → Option Bytes)
    (sound : σ → Prop) : Prop where
  load : ∀ (storage : σ) (size : Nat),
    Storage.load storage key size = ((kept storage).getD #[]).resize size 0
  save : ∀ (storage : σ) (data : Bytes), sound storage →
    kept (Storage.save storage key data) = some data ∧ sound (Storage.save storage key data)

theorem MemoryStorage.get?_insert (storage : MemoryStorage) (key : String) (data : Bytes) :
    (storage.insert key data).get? key = some data := by
  unfold get? insert
  rw [List.lookup_cons, beq_self_eq_true]

theorem MemoryStorage.keeps (key : String) :
    Storage.Keeps key (fun storage : MemoryStorage => storage.get? key) fun _ => True where
  load _ _ := rfl
  save storage data _ := ⟨storage.get?_insert key data, trivial⟩

namespace FileTree

theorem entry?_put (tree : FileTree) {path : FilePath} (below : path.isEmpty = false)
    (entry : FileEntry) : FileTree.entry? (tree.put path entry) path = some entry := by
  unfold entry? put
  rw [below, if_neg (by decide), List.lookup_cons, beq_self_eq_true]

theorem lookup_filter_ne {path path' : FilePath} (h : path' ≠ path)
    (entries : List (FilePath × FileEntry)) :
    (entries.filter (·.1 != path)).lookup path' = entries.lookup path' := by
  induction entries with
  | nil => rfl
  | cons entry entries ih =>
    obtain ⟨at', value⟩ := entry
    by_cases hat : at' = path
    · rw [List.filter_cons_of_neg (by simp [hat]), ih, List.lookup_cons]
      have hne : (path' == at') = false := by simp [hat, h]
      rw [hne]
    · rw [List.filter_cons_of_pos (by simp [hat]), List.lookup_cons, List.lookup_cons, ih]

theorem entry?_put_ne (tree : FileTree) {path path' : FilePath} (h : path' ≠ path)
    (entry : FileEntry) : FileTree.entry? (tree.put path entry) path' = tree.entry? path' := by
  have hne : (path' == path) = false := by simp [h]
  unfold entry? put
  dsimp only
  rw [List.lookup_cons, hne]
  dsimp only
  rw [lookup_filter_ne h]

/-- The root is a directory, so what is none is below it. -/
theorem below_of_free {tree : FileTree} {path : FilePath} (free : tree.isDirectory path = false) :
    path.isEmpty = false := by
  cases path with
  | nil =>
    unfold isDirectory entry? at free
    simp at free
  | cons => rfl

theorem ne_of_directory {tree : FileTree} {path path' : FilePath}
    (free : tree.isDirectory path = false)
    (directory : FileTree.entry? tree path' = some .directory) : path' ≠ path := by
  rintro rfl
  unfold isDirectory at free
  rw [directory] at free
  simp at free

/-! ### What is written is found -/

/-- A file that is put where no directory is stands in nobody's way. -/
theorem resolve_put {tree : FileTree} {path : FilePath} (free : tree.isDirectory path = false)
    (bytes : Bytes) {start target : FilePath} {names : List String}
    (h : tree.resolve start names = .ok target) :
    (tree.put path (.file bytes)).resolve start names = .ok target := by
  induction names generalizing start with
  | nil => exact h
  | cons name names ih =>
    unfold resolve at h
    split at h
    · cases h
    · cases h
    · next hentry =>
      unfold resolve
      rw [entry?_put_ne tree (ne_of_directory free hentry), hentry]
      split at h
      · cases h
      · exact ih h

theorem locate_put {tree : FileTree} {path : FilePath} (free : tree.isDirectory path = false)
    (bytes : Bytes) {target : FilePath} {names : List String}
    (h : tree.locate names = .ok target) :
    (tree.put path (.file bytes)).locate names = .ok target := by
  unfold locate at h ⊢
  split at h
  · cases h
  · exact resolve_put free bytes h

/-- A file is written where its names lead, unless a directory is there. -/
theorem write_eq_ok {tree tree' : FileTree} {names : List String} {bytes : Bytes} :
    tree.write names bytes = .ok tree' ↔
      ∃ path, tree.locate names = .ok path ∧ tree.isDirectory path = false ∧
        tree' = tree.put path (.file bytes) := by
  unfold write
  constructor
  · intro h
    split at h
    · cases h
    · next path hlocate =>
      split at h
      · cases h
      · next hdirectory =>
        cases h
        exact ⟨path, hlocate, by simpa using hdirectory, rfl⟩
  · rintro ⟨path, hlocate, free, rfl⟩
    rw [hlocate]
    dsimp only
    rw [free]
    rfl

/-- What was written is read. -/
theorem read_write {tree tree' : FileTree} {names : List String} {bytes : Bytes}
    (h : tree.write names bytes = .ok tree') : tree'.read names = .ok bytes := by
  obtain ⟨path, hlocate, free, rfl⟩ := write_eq_ok.mp h
  unfold read
  rw [locate_put free bytes hlocate]
  dsimp only
  unfold bytesAt
  rw [entry?_put tree (below_of_free free)]

/-- What was written once can be written again. -/
theorem write_again {tree tree' : FileTree} {names : List String} {bytes : Bytes}
    (h : tree.write names bytes = .ok tree') (bytes' : Bytes) :
    ∃ tree'', tree'.write names bytes' = .ok tree'' := by
  obtain ⟨path, hlocate, free, rfl⟩ := write_eq_ok.mp h
  refine ⟨_, write_eq_ok.mpr ⟨path, locate_put free bytes hlocate, ?_, rfl⟩⟩
  unfold isDirectory
  rw [entry?_put tree (below_of_free free)]
  simp

/-- A written file is in no directory's place. -/
theorem leadsToDirectory_write {tree tree' : FileTree} {names names' : List String}
    {bytes : Bytes} (h : tree.write names bytes = .ok tree')
    (there : tree.leadsToDirectory names' = true) : tree'.leadsToDirectory names' = true := by
  obtain ⟨path, _, free, rfl⟩ := write_eq_ok.mp h
  unfold leadsToDirectory at there ⊢
  cases hlocate : tree.locate names' with
  | error fault =>
    rw [hlocate] at there
    cases there
  | ok path' =>
    rw [hlocate] at there
    rw [locate_put free bytes hlocate]
    have directory : FileTree.entry? tree path' = some .directory := by
      simpa [isDirectory] using there
    unfold isDirectory
    dsimp only
    rw [entry?_put_ne tree (ne_of_directory free directory), directory]
    simp

/-! ### Directories are made once -/

/-- Nothing is missing along the names. A name that is refused, or a file, ends the way. -/
def Complete (tree : FileTree) (path : FilePath) : List String → Prop
  | [] => True
  | name :: rest =>
    match descend path name with
    | .error _ => True
    | .ok path =>
      match tree.entry? path with
      | some .directory => Complete tree path rest
      | some (.file _) => True
      | none => False

/-- Where nothing is missing nothing is made. -/
theorem makeAlong_of_complete {tree : FileTree} {path : FilePath} {names : List String}
    (h : Complete tree path names) : tree.makeAlong path names = tree := by
  induction names generalizing path with
  | nil => rfl
  | cons name names ih =>
    unfold Complete at h
    unfold makeAlong
    cases hdescend : descend path name with
    | error fault => rfl
    | ok path' =>
      rw [hdescend] at h
      dsimp only at h ⊢
      cases hentry : tree.entry? path' with
      | none =>
        rw [hentry] at h
        exact h.elim
      | some entry =>
        rw [hentry] at h
        cases entry with
        | file bytes => rfl
        | directory => exact ih h

/-- Making directories takes nothing away. -/
theorem entry?_makeAlong {tree : FileTree} {path path' : FilePath} {names : List String}
    {entry : FileEntry} (h : FileTree.entry? tree path' = some entry) :
    FileTree.entry? (tree.makeAlong path names) path' = some entry := by
  induction names generalizing tree path with
  | nil => exact h
  | cons name names ih =>
    unfold makeAlong
    cases descend path name with
    | error fault => exact h
    | ok next =>
      dsimp only
      cases hnext : tree.entry? next with
      | none =>
        have hne : path' ≠ next := by
          rintro rfl
          cases hnext.symm.trans h
        exact ih ((entry?_put_ne tree hne .directory).trans h)
      | some found =>
        cases found with
        | file bytes => exact h
        | directory => exact ih h

/-- What was gone along once is complete. -/
theorem complete_makeAlong (tree : FileTree) (path : FilePath) (names : List String) :
    Complete (tree.makeAlong path names) path names := by
  induction names generalizing tree path with
  | nil => trivial
  | cons name names ih =>
    unfold makeAlong Complete
    cases descend path name with
    | error fault => trivial
    | ok next =>
      dsimp only
      cases hnext : tree.entry? next with
      | none =>
        have free : tree.isDirectory next = false := by simp [isDirectory, hnext]
        dsimp only
        -- the directory made here is still there at the end of the way
        rw [entry?_makeAlong (entry?_put tree (below_of_free free) .directory)]
        exact ih _ _
      | some found =>
        cases found with
        | file bytes =>
          dsimp only
          rw [hnext]
          trivial
        | directory =>
          dsimp only
          rw [entry?_makeAlong hnext]
          exact ih _ _

/-- A file where no directory is leaves nothing missing. -/
theorem complete_put {tree : FileTree} {target : FilePath}
    (free : tree.isDirectory target = false) (bytes : Bytes) {path : FilePath}
    {names : List String} (h : Complete tree path names) :
    Complete (tree.put target (.file bytes)) path names := by
  induction names generalizing path with
  | nil => trivial
  | cons name names ih =>
    unfold Complete at h ⊢
    cases hdescend : descend path name with
    | error fault => trivial
    | ok next =>
      rw [hdescend] at h
      dsimp only at h ⊢
      by_cases hnext : next = target
      · subst hnext
        rw [entry?_put tree (below_of_free free)]
        trivial
      · rw [entry?_put_ne tree hnext]
        cases hentry : tree.entry? next with
        | none =>
          rw [hentry] at h
          exact h
        | some entry =>
          rw [hentry] at h
          cases entry with
          | file _ => trivial
          | directory => exact ih h

/-- Directories that were made are there after a write; they are not made again. -/
theorem makeDirectories_write {tree tree' : FileTree} {names names' : List String}
    {bytes : Bytes} (h : (tree.makeDirectories names).write names' bytes = .ok tree') :
    tree'.makeDirectories names = tree' := by
  obtain ⟨path, _, free, rfl⟩ := write_eq_ok.mp h
  unfold makeDirectories at free ⊢
  cases hfault : pathFault? (pathText names) with
  | some fault => rfl
  | none =>
    rw [hfault] at free
    exact makeAlong_of_complete (complete_put free bytes (complete_makeAlong tree [] _))

end FileTree

namespace SaveDirectory

/-- Whether a file can be written under a key: the directory can be made, and then the file of
    some bytes goes where the names lead. -/
def Writable (key : String) (directory : SaveDirectory) : Prop :=
  directory.make.isThere = true ∧
    ∃ data tree, directory.make.tree.write (directory.make.namesFor key) data = .ok tree

/-- A file that can be written with some bytes can be written with any. -/
theorem Writable.write {directory : SaveDirectory} {key : String} (h : Writable key directory)
    (data : Bytes) :
    ∃ tree, directory.make.tree.write (directory.make.namesFor key) data = .ok tree := by
  obtain ⟨_, _, _, hwrite⟩ := h
  obtain ⟨path, hlocate, free, _⟩ := FileTree.write_eq_ok.mp hwrite
  exact ⟨_, FileTree.write_eq_ok.mpr ⟨path, hlocate, free, rfl⟩⟩

theorem put_eq {directory : SaveDirectory} {key : String} {data : Bytes} {tree : FileTree}
    (there : directory.make.isThere = true)
    (h : directory.make.tree.write (directory.make.namesFor key) data = .ok tree) :
    directory.put key data = { directory with tree } := by
  unfold put
  dsimp only
  rw [if_pos there, h]
  rfl

theorem get?_put {directory : SaveDirectory} {key : String} (h : Writable key directory)
    (data : Bytes) : (directory.put key data).get? key = some data := by
  obtain ⟨tree, hwrite⟩ := h.write data
  rw [put_eq h.1 hwrite]
  unfold get?
  show (tree.read (directory.make.namesFor key)).toOption = some data
  rw [FileTree.read_write hwrite]
  rfl

/-- After one write the next one succeeds. -/
theorem writable_put {directory : SaveDirectory} {key : String} (h : Writable key directory)
    (data : Bytes) : Writable key (directory.put key data) := by
  obtain ⟨tree, hwrite⟩ := h.write data
  rw [put_eq h.1 hwrite]
  have hmade : tree.makeDirectories directory.names = tree :=
    FileTree.makeDirectories_write hwrite
  have hmake : ({ directory with tree } : SaveDirectory).make = { directory with tree } := by
    unfold make
    dsimp only
    rw [hmade]
  unfold Writable
  rw [hmake]
  exact ⟨FileTree.leadsToDirectory_write hwrite h.1, data, FileTree.write_again hwrite data⟩

theorem keeps (key : String) :
    Storage.Keeps key (fun directory : SaveDirectory => directory.get? key) (Writable key) where
  load _ _ := rfl
  save _ data h := ⟨get?_put h data, writable_put h data⟩

end SaveDirectory
end Nes
