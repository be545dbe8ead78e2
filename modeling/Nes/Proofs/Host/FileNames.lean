/-
  The file of a cartridge has a name of its own.

  A cartridge's key is the digest of its image: forty hexadecimal digits (`plainKey_of_load`).
  So the name of its file has no slash in it, and the file lies directly in the directory for
  saves (`namesFor_of_plain`). A directory that can be made takes the file unless the path is
  too long or a directory has its name (`writable_of_plain`); a directory at the root of an empty
  tree takes the file of every cartridge (`writable_saves`).
-/
import Nes.Console.Basic
import Nes.Proofs.Host.Storage
import Nes.Proofs.Image
import Mathlib.Data.String.Basic

namespace Nes

/-! ## Text without a slash -/

namespace Text

/-- Without a slash ahead the search goes to the end, and what it has gone over is one part. -/
theorem splitOnAux_slash (before rest : List Char) (h : '/' ∉ rest) :
    String.splitOnAux (.ofList (before ++ rest)) "/" 0 ⟨String.utf8Len before⟩ 0 [] =
      [.ofList (before ++ rest)] := by
  induction rest generalizing before with
  | nil =>
    have hend := (String.atEnd_of_valid before []).mpr rfl
    have hall : String.Pos.Raw.extract (.ofList before) 0 ⟨String.utf8Len before⟩ =
        .ofList before := by
      simpa using String.extract_of_valid [] before []
    unfold String.splitOnAux
    rw [if_pos hend, List.append_nil, hall]
    rfl
  | cons c rest ih =>
    rw [List.mem_cons, not_or] at h
    have hend : ¬ String.Pos.Raw.atEnd (.ofList (before ++ c :: rest))
        ⟨String.utf8Len before⟩ = true :=
      fun hend => nomatch (String.atEnd_of_valid before (c :: rest)).mp hend
    have hget : String.Pos.Raw.get (.ofList (before ++ c :: rest)) ⟨String.utf8Len before⟩ = c :=
      String.get_of_valid before (c :: rest)
    have hnext : String.Pos.Raw.next (.ofList (before ++ c :: rest)) ⟨String.utf8Len before⟩ =
        ⟨String.utf8Len (before ++ [c])⟩ := by
      rw [String.next_of_valid before c rest]
      simp
    have hslash : String.Pos.Raw.get "/" 0 = '/' := rfl
    have hne : ¬ (c == '/') = true := by simp [Ne.symm h.1]
    have hall := ih (before ++ [c]) h.2
    rw [List.append_assoc, List.singleton_append] at hall
    unfold String.splitOnAux
    rw [if_neg hend, hget, hslash, if_neg hne]
    show String.splitOnAux _ _ _ (String.Pos.Raw.next _ ⟨String.utf8Len before - 0⟩) _ _ = _
    rw [Nat.sub_zero, hnext, hall]

/-- Text without a slash has one part. -/
theorem splitOn_slash {text : String} (h : '/' ∉ text.toList) : text.splitOn "/" = [text] := by
  have hall := splitOnAux_slash [] text.toList h
  rw [List.nil_append, String.ofList_toList] at hall
  unfold String.splitOn
  rw [if_neg (by decide)]
  exact hall

/-! ## Hexadecimal digits -/

theorem mem_hexDigits {digit : Nat → Char} {width n : Nat} {c : Char}
    (h : c ∈ hexDigits digit width n) : ∃ d < 16, c = digit d := by
  induction width generalizing n with
  | zero => cases h
  | succ width ih =>
    unfold hexDigits at h
    rw [List.mem_append, List.mem_singleton] at h
    obtain h | rfl := h
    · exact ih h
    · exact ⟨n % 16, Nat.mod_lt n (by decide), rfl⟩

theorem lowerDigit_plain : ∀ d < 16,
    (lowerDigit d).utf8Size = 1 ∧ lowerDigit d ≠ '/' ∧ lowerDigit d ≠ '\x00' := by
  decide

/-- A digit in lower case is one byte. -/
theorem utf8ByteSize_lowerHex (width n : Nat) : (lowerHex width n).utf8ByteSize = width := by
  unfold lowerHex
  induction width generalizing n with
  | zero => rfl
  | succ width ih =>
    have hdigit := (lowerDigit_plain (n % 16) (Nat.mod_lt n (by decide))).1
    unfold hexDigits
    rw [String.ofList_append, String.utf8ByteSize_append, ih]
    simp [hdigit]

end Text

/-! ## Keys -/

/-- A key like those of cartridges: its characters are neither slashes nor zeros, and it is
    forty bytes long. -/
structure PlainKey (key : String) : Prop where
  size : key.utf8ByteSize = 40
  slash : '/' ∉ key.toList
  zero : '\x00' ∉ key.toList

theorem plainKey_sha1 (bytes : Bytes) : PlainKey (Digest.sha1 bytes) := by
  have hplain {words : List UInt32} {c : Char}
      (h : c ∈ (String.join (words.map fun x => Text.lowerHex 8 x.toNat)).toList) :
      c ≠ '/' ∧ c ≠ '\x00' := by
    rw [String.toList_join, List.mem_flatMap] at h
    obtain ⟨part, hpart, hmem⟩ := h
    obtain ⟨word, _, rfl⟩ := List.mem_map.mp hpart
    unfold Text.lowerHex at hmem
    rw [String.toList_ofList] at hmem
    obtain ⟨d, hd, rfl⟩ := Text.mem_hexDigits hmem
    exact (Text.lowerDigit_plain d hd).2
  unfold Digest.sha1
  constructor
  · simp [String.join, String.utf8ByteSize_append, Text.utf8ByteSize_lowerHex]
  · exact fun h => (hplain h).1 rfl
  · exact fun h => (hplain h).2 rfl

theorem Image.key_of_parse {bytes : Bytes} {image : Image} (h : parse bytes = .ok image) :
    image.key = Digest.sha1 bytes := by
  obtain ⟨header, _, h⟩ := ok_of_bind h
  obtain ⟨trainer, _, h⟩ := ok_of_bind h
  obtain ⟨prg, _, h⟩ := ok_of_bind h
  obtain ⟨chr, _, h⟩ := ok_of_bind h
  cases h
  rfl

/-- The key of every cartridge that can be loaded is plain. -/
theorem plainKey_of_load {source : Source} {files : Files} {registry : Registry}
    {cartridge : Cartridge} (load : source.load files registry = .ok cartridge) :
    PlainKey cartridge.image.key := by
  have hplain {bytes : Bytes} {id : Option UInt16}
      (h : Cartridge.load registry bytes id = .ok cartridge) : PlainKey cartridge.image.key := by
    unfold Cartridge.load at h
    obtain ⟨image, hparse, h⟩ := ok_of_bind h
    obtain ⟨board, _, h⟩ := ok_of_bind h
    cases h
    show PlainKey image.key
    rw [Image.key_of_parse hparse]
    exact plainKey_sha1 bytes
  unfold Source.load at load
  split at load
  · split at load
    · exact hplain load
    · cases load
  · exact hplain load
  · exact hplain load

/-! ## Where the file is -/

theorem FileTree.resolve_append (tree : FileTree) (start : FilePath) (names names' : List String) :
    tree.resolve start (names ++ names') =
      (tree.resolve start names).bind fun path => tree.resolve path names' := by
  induction names generalizing start with
  | nil => rfl
  | cons name names ih =>
    rw [List.cons_append, resolve, resolve]
    cases tree.entry? start with
    | none => rfl
    | some entry =>
      cases entry with
      | file bytes => rfl
      | directory =>
        dsimp only
        cases descend start name with
        | error fault => rfl
        | ok path => exact ih path

/-- A step inside a directory. -/
theorem FileTree.resolve_singleton {tree : FileTree} {path path' : FilePath} {name : String}
    (directory : tree.isDirectory path = true) (h : descend path name = .ok path') :
    tree.resolve path [name] = .ok path' := by
  have hentry : tree.entry? path = some .directory := by simpa [isDirectory] using directory
  unfold resolve
  rw [hentry, h]
  rfl

namespace SaveDirectory

variable {directory : SaveDirectory} {key : String}

/-- The names that lead to the directory, without the slash at the end. -/
def parents (directory : SaveDirectory) : List String :=
  if directory.names.getLast? = some "" then directory.names.dropLast else directory.names

theorem utf8ByteSize_fileName (plain : PlainKey key) : (fileName key).utf8ByteSize = 44 := by
  unfold fileName
  rw [String.utf8ByteSize_append, plain.size]
  rfl

theorem fileName_ne (plain : PlainKey key) (name : String) (h : name.utf8ByteSize ≠ 44) :
    fileName key ≠ name := by
  rintro rfl
  exact h (utf8ByteSize_fileName plain)

/-- The file lies directly in the directory. -/
theorem namesFor_of_plain (plain : PlainKey key) :
    directory.namesFor key = directory.parents ++ [fileName key] := by
  have hslash : '/' ∉ (fileName key).toList := by
    unfold fileName
    simp [plain.slash]
  unfold namesFor parents
  rw [Text.splitOn_slash hslash]
  split
  · next h =>
    exact absurd (List.cons.inj h).1 (fileName_ne plain "" (by decide))
  · split
    · rfl
    · rfl

theorem descend_fileName (plain : PlainKey key) (path : FilePath) :
    FileTree.descend path (fileName key) = .ok (path ++ [fileName key]) := by
  have hempty := fileName_ne plain "" (by decide)
  have hdot := fileName_ne plain "." (by decide)
  have hdots := fileName_ne plain ".." (by decide)
  unfold FileTree.descend
  rw [if_neg (by simp [hempty, hdot]), if_neg (by simp [hdots]), if_neg]
  rw [utf8ByteSize_fileName plain]
  decide

/-- The slash at the end of the directory's path leads no further. -/
theorem resolve_parents {tree : FileTree} {path : FilePath}
    (h : tree.resolve [] directory.names = .ok path) :
    tree.resolve [] directory.parents = .ok path := by
  unfold parents
  split
  · next hlast =>
    rw [← List.dropLast_append_getLast? "" hlast, FileTree.resolve_append] at h
    cases hparents : tree.resolve [] directory.names.dropLast with
    | error fault =>
      rw [hparents] at h
      cases h
    | ok path' =>
      rw [hparents] at h
      replace h : tree.resolve path' [""] = .ok path := h
      unfold FileTree.resolve at h
      split at h
      · cases h
      · cases h
      · exact h
  · exact h

/-- A directory that can be made takes the file of a cartridge, unless the path is too long or a
    directory has the file's name. -/
theorem writable_of_plain (plain : PlainKey key) (there : directory.make.isThere = true)
    (short : FileTree.pathFault? (FileTree.pathText (directory.parents ++ [fileName key])) = none)
    (free : ∀ path, directory.make.tree.locate directory.names = .ok path →
      directory.make.tree.isDirectory (path ++ [fileName key]) = false) :
    Writable key directory := by
  refine ⟨there, #[], ?_⟩
  have hthere : directory.make.tree.leadsToDirectory directory.names = true := there
  unfold FileTree.leadsToDirectory at hthere
  cases hlocate : directory.make.tree.locate directory.names with
  | error fault =>
    rw [hlocate] at hthere
    cases hthere
  | ok path =>
    rw [hlocate] at hthere
    have hresolve : directory.make.tree.resolve [] directory.names = .ok path := by
      unfold FileTree.locate at hlocate
      split at hlocate
      · cases hlocate
      · exact hlocate
    have hfile : directory.make.tree.locate (directory.make.namesFor key) =
        .ok (path ++ [fileName key]) := by
      rw [namesFor_of_plain plain]
      show directory.make.tree.locate (directory.parents ++ [fileName key]) = _
      unfold FileTree.locate
      rw [short]
      dsimp only
      rw [FileTree.resolve_append, resolve_parents hresolve]
      exact FileTree.resolve_singleton hthere (descend_fileName plain path)
    exact ⟨_, FileTree.write_eq_ok.mpr ⟨_, hfile, free path hlocate, rfl⟩⟩

/-- A directory at the root of an empty tree is made, and takes the file of every cartridge. -/
theorem writable_saves (plain : PlainKey key) : Writable key { names := ["saves"] } := by
  have hpath : FileTree.pathFault? (FileTree.pathText ["saves"]) = none := by
    have htext : FileTree.pathText ["saves"] = "/saves" := by decide
    rw [htext]
    unfold FileTree.pathFault?
    rw [String.contains_char_eq]
    decide
  have hmake : ({ names := ["saves"] } : SaveDirectory).make =
      { tree := ⟨[(["saves"], .directory)]⟩, names := ["saves"] } := by
    unfold make FileTree.makeDirectories
    dsimp only
    rw [hpath]
    rfl
  have hlocate : FileTree.locate ⟨[(["saves"], .directory)]⟩ ["saves"] = .ok ["saves"] := by
    unfold FileTree.locate
    rw [hpath]
    rfl
  apply writable_of_plain plain
  · rw [hmake]
    unfold isThere FileTree.leadsToDirectory
    dsimp only
    rw [hlocate]
    rfl
  · have htext : FileTree.pathText (parents { names := ["saves"] } ++ [fileName key]) =
        "/saves/" ++ fileName key := by
      show "/" ++ ("saves" ++ "/" ++ fileName key) = "/saves/" ++ fileName key
      rw [← String.append_assoc]
      rfl
    have hzero : '\x00' ∉ ("/saves/" ++ fileName key).toList := by
      unfold fileName
      simp [plain.zero]
    rw [htext]
    unfold FileTree.pathFault?
    rw [String.contains_char_eq, decide_eq_false hzero, String.utf8ByteSize_append,
      utf8ByteSize_fileName plain]
    rfl
  · intro path h
    rw [hmake] at h ⊢
    dsimp only at h ⊢
    rw [hlocate] at h
    cases h
    rfl

end SaveDirectory
end Nes
