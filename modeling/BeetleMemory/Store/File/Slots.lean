import BeetleMemory.Store.File.Reads

/-! What the files of a store mean: every data file sits beside the index of the one key it
belongs to, so that a read gives the value of that key or fails.
-/

namespace BeetleMemory.Store

open Std FileSystem

variable {Value : Type}

/-- The bytes each lane holds under each key. -/
abbrev Holdings := Lane → Address → Option Bytes

namespace FileStoreEngine

/-- The index bytes of a key. -/
def indexBytes (format : FileFormat Value) (key : String) : Bytes :=
  format.keyIndexToVecPretty ⟨2, key⟩

/-- The files are exactly the data and index files of the held keys, each under a path that
passed the path budget, and there is no file of the older layout.
-/
structure Keeps (engine : FileStoreEngine) (format : FileFormat Value) (disk : Disk)
    (held : Holdings)
    : Prop where
  paths : ∀ {lane address bytes}, held lane address = some bytes
    → engine.physicalKeyPaths format.keyDigest lane address
      = .ok (engine.layout format.keyDigest lane address)
  data : ∀ {lane address bytes}, held lane address = some bytes
    → disk.files[(engine.layout format.keyDigest lane address).dataPath]? = some bytes
  index : ∀ {lane address bytes}, held lane address = some bytes
    → disk.files[(engine.layout format.keyDigest lane address).indexPath]?
      = some (indexBytes format address.key)
  only : ∀ {path : FilePath}, path.dir.length = 4 → path ∈ disk.files
    → ∃ lane address bytes, held lane address = some bytes
      ∧ (path = (engine.layout format.keyDigest lane address).dataPath
        ∨ path = (engine.layout format.keyDigest lane address).indexPath)
  noLegacy : ∀ path : FilePath, path.dir.length = 2 → disk.files[path]? = none

variable {engine : FileStoreEngine} {format : FileFormat Value} {disk : Disk}
  {held : Holdings} {lane : Lane} {address : Address}

/-- The key whose files a path belongs to, if there is a data file. -/
theorem Keeps.occupant (keeps : engine.Keeps format disk held) {bytes : Bytes}
    (h : disk.files[(engine.layout format.keyDigest lane address).dataPath]? = some bytes)
    : ∃ owner, held lane owner = some bytes
      ∧ engine.SameSlot format.keyDigest lane address owner := by
  have present : (engine.layout format.keyDigest lane address).dataPath ∈ disk.files := by
    rw [ExtTreeMap.mem_iff_isSome_getElem?, h]
    rfl
  obtain ⟨lane', owner, bytes', holds, place | place⟩ := keeps.only rfl present
  · obtain ⟨rfl, slot⟩ := layout_dataPath_eq_iff.mp place
    have same : some bytes' = some bytes := by rw [← keeps.data holds, ← place, h]
    exact ⟨owner, holds.trans same, slot⟩
  · exact absurd place layout_dataPath_ne_indexPath

/-- Without a data file there is no index either. -/
theorem Keeps.index_eq_none (keeps : engine.Keeps format disk held)
    (h : disk.files[(engine.layout format.keyDigest lane address).dataPath]? = none)
    : disk.files[(engine.layout format.keyDigest lane address).indexPath]? = none := by
  by_contra present
  have member : (engine.layout format.keyDigest lane address).indexPath ∈ disk.files := by
    rw [ExtTreeMap.mem_iff_isSome_getElem?]
    exact Option.isSome_iff_ne_none.mpr present
  obtain ⟨lane', owner, bytes, holds, place | place⟩ := keeps.only rfl member
  · exact absurd place.symm layout_dataPath_ne_indexPath
  · have same := layout_dataPath_eq_iff.mpr (layout_indexPath_eq_iff.mp place)
    rw [same, keeps.data holds] at h
    cases h

/-- Two held keys never share their files. -/
theorem Keeps.distinct [DecidableEq Value] (keeps : engine.Keeps format disk held)
    (lawful : format.Lawful) {owner : Address} {bytes bytes' : Bytes}
    (holds : held lane address = some bytes) (holds' : held lane owner = some bytes')
    (slot : engine.SameSlot format.keyDigest lane address owner)
    : address = owner := by
  have place := layout_indexPath_eq_iff.mpr (⟨rfl, slot⟩ : lane = lane ∧ _)
  have same : indexBytes format address.key = indexBytes format owner.key := by
    have first := keeps.index holds
    rw [place, keeps.index holds'] at first
    exact (Option.some.inj first).symm
  have decoded : (⟨2, address.key⟩ : FileKeyIndex) = ⟨2, owner.key⟩ := by
    have first := lawful.keyIndexFromSlice_keyIndexToVecPretty ⟨2, address.key⟩
    rw [indexBytes, indexBytes] at same
    rw [same, lawful.keyIndexFromSlice_keyIndexToVecPretty] at first
    exact (Except.ok.inj first).symm
  obtain ⟨ns, key⟩ := address
  obtain ⟨ns', key'⟩ := owner
  simp_all [SameSlot]

/-! ## Reading -/

/-- The index of a key is short enough to be read. -/
def IndexFits (engine : FileStoreEngine) (format : FileFormat Value) (key : String) : Prop :=
  (indexBytes format key).length ≤ engine.keyIndexMaxBytes

section Reading

variable {path : FilePath} {key stage : String}

/-- A file within the limit is read whole. -/
theorem readFileBounded_of_le {bytes : Bytes} {maxBytes : Nat}
    (h : disk.files[path]? = some bytes) (within : bytes.length ≤ maxBytes)
    : readFileBounded disk path maxBytes stage = .ok (some bytes) := by
  simp [readFileBounded, h, require, within, Fallible.ok_bind, pure, Except.pure]

theorem readFileBounded_of_missing {maxBytes : Nat} (h : disk.files[path]? = none)
    : readFileBounded disk path maxBytes stage = .ok none := by
  simp [readFileBounded, h]

/-- A bounded read gives the file or fails because it is too long. -/
theorem readFileBounded_eq_ok {maxBytes : Nat} {found : Option Bytes}
    (read : readFileBounded disk path maxBytes stage = .ok found)
    : found = disk.files[path]? ∧ ∀ bytes, found = some bytes → bytes.length ≤ maxBytes := by
  unfold readFileBounded at read
  split at read
  next missing =>
    cases read
    exact ⟨missing.symm, by simp⟩
  next bytes present =>
    simp only [Fallible.bind_eq_ok, require_eq_ok, Fallible.pure_eq_ok] at read
    obtain ⟨-, within, rfl⟩ := read
    exact ⟨present.symm, by simpa using within⟩

/-- A readable index gives the key it was written for. -/
theorem readKeyIndex_of_index [DecidableEq Value] (lawful : format.Lawful)
    (h : disk.files[path]? = some (indexBytes format key))
    (fits : engine.IndexFits format key)
    : engine.readKeyIndex format disk path stage = .ok (some key) := by
  have decoded := lawful.keyIndexFromSlice_keyIndexToVecPretty ⟨2, key⟩
  rw [readKeyIndex, readFileBounded_of_le h fits, Fallible.ok_bind]
  simp [indexBytes, decoded, atStage, require, Fallible.ok_bind, pure, Except.pure]

/-- Reading an index gives its key or fails because it is too long. -/
theorem readKeyIndex_eq_ok [DecidableEq Value] (lawful : format.Lawful)
    (h : disk.files[path]? = some (indexBytes format key)) {found : Option String}
    (read : engine.readKeyIndex format disk path stage = .ok found)
    : engine.IndexFits format key ∧ found = some key := by
  obtain ⟨bytes, bounded, -⟩ := Fallible.bind_eq_ok.mp read
  obtain ⟨same, within⟩ := readFileBounded_eq_ok bounded
  have fits : engine.IndexFits format key := within _ (same.trans h)
  rw [readKeyIndex_of_index lawful h fits] at read
  exact ⟨fits, (Except.ok.inj read).symm⟩

theorem readKeyIndex_of_missing (h : disk.files[path]? = none)
    : engine.readKeyIndex format disk path stage = .ok none := by
  rw [readKeyIndex, readFileBounded_of_missing h, Fallible.ok_bind]
  rfl

/-- A way of reading files that returns a file as it is or fails. -/
def ReadsFiles (disk : Disk) (readData : FilePath → Except Error (Option Bytes)) : Prop :=
  ∀ path found, readData path = .ok found → found = disk.files[path]?

theorem readsFiles_whole (disk : Disk)
    : ReadsFiles disk (fun path => .ok disk.files[path]?) := by
  rintro path found ⟨⟩
  rfl

theorem readsFiles_bounded (disk : Disk) (maxBytes : Nat) (stage : String)
    : ReadsFiles disk (readFileBounded disk · maxBytes stage) :=
  fun _ _ read => (readFileBounded_eq_ok read).1

/-- A held key with a readable index is read as it is held, if its file can be read. -/
theorem Keeps.readPhysical_of_held [DecidableEq Value] (keeps : engine.Keeps format disk held)
    (lawful : format.Lawful) {bytes : Bytes} (holds : held lane address = some bytes)
    (fits : engine.IndexFits format address.key)
    {readData : FilePath → Except Error (Option Bytes)}
    (readable : readData (engine.layout format.keyDigest lane address).dataPath
      = .ok (some bytes))
    : engine.readPhysical format disk lane address readData stage = .ok (some bytes) := by
  have index : engine.readKeyIndex format disk _ stage = _ :=
    readKeyIndex_of_index lawful (keeps.index holds) fits
  rw [readPhysical, keeps.paths holds, Fallible.ok_bind, readable, Fallible.ok_bind]
  simp [requireKeyIndexMatches, index, Fallible.ok_bind, require, pure, Except.pure]

/-- A key whose files are not there is read as absent. -/
theorem Keeps.readPhysical_of_free (keeps : engine.Keeps format disk held)
    {paths : PhysicalKeyPaths}
    (addressed : engine.physicalKeyPaths format.keyDigest lane address = .ok paths)
    (free : disk.files[(engine.layout format.keyDigest lane address).dataPath]? = none)
    {readData : FilePath → Except Error (Option Bytes)}
    (readable : ∀ path, disk.files[path]? = none → readData path = .ok none)
    : engine.readPhysical format disk lane address readData stage = .ok none := by
  obtain rfl := physicalKeyPaths_ok addressed
  have index : engine.readKeyIndex format disk _ stage = _ :=
    readKeyIndex_of_missing (keeps.index_eq_none free)
  have legacy := readable _ (keeps.noLegacy
    (engine.layout format.keyDigest lane address).legacyPath rfl)
  rw [readPhysical, addressed, Fallible.ok_bind, readable _ free, Fallible.ok_bind]
  simp [index, Fallible.ok_bind, require, legacy]

/-- What a successful read means: a value is the held value of that very key under a
readable index, and no value means that the key's files are not there.
-/
theorem Keeps.readPhysical_ok [DecidableEq Value] (keeps : engine.Keeps format disk held)
    (lawful : format.Lawful) {readData : FilePath → Except Error (Option Bytes)}
    (faithful : ReadsFiles disk readData) {found : Option Bytes}
    (read : engine.readPhysical format disk lane address readData stage = .ok found)
    : found = held lane address
      ∧ (∀ bytes, found = some bytes → engine.IndexFits format address.key)
      ∧ (found = none
        → disk.files[(engine.layout format.keyDigest lane address).dataPath]? = none) := by
  obtain ⟨paths, addressed, read⟩ := Fallible.bind_eq_ok.mp read
  obtain rfl := physicalKeyPaths_ok addressed
  obtain ⟨bytes, data, read⟩ := Fallible.bind_eq_ok.mp read
  have seen := faithful _ _ data
  cases bytes with
  | some bytes =>
      obtain ⟨owner, holds, slot⟩ := keeps.occupant seen.symm
      obtain ⟨_, matched, found⟩ := Fallible.bind_eq_ok.mp read
      obtain ⟨key, index, same⟩ := Fallible.bind_eq_ok.mp matched
      have place := layout_indexPath_eq_iff.mpr (⟨rfl, slot⟩ : lane = lane ∧ _)
      have written := keeps.index holds
      rw [← place] at written
      obtain ⟨fits, rfl⟩ := readKeyIndex_eq_ok lawful written index
      have key_eq : owner.key = address.key := by simpa using same
      have owner_eq : owner = address := by
        obtain ⟨ns, key⟩ := owner
        obtain ⟨ns', key'⟩ := address
        simp_all [SameSlot]
      subst owner_eq
      cases found
      exact ⟨holds.symm, fun _ _ => fits, by simp⟩
  | none =>
      have free := seen.symm
      obtain ⟨index, _, read⟩ := Fallible.bind_eq_ok.mp read
      obtain ⟨_, _, legacy⟩ := Fallible.bind_eq_ok.mp read
      have none_found : found = none := by
        rw [faithful _ _ legacy]
        exact keeps.noLegacy _ rfl
      have not_held : held lane address = none := by
        by_contra holds
        obtain ⟨bytes, holds⟩ := Option.ne_none_iff_exists'.mp holds
        rw [keeps.data holds] at free
        cases free
      subst none_found
      exact ⟨not_held.symm, by simp, fun _ => free⟩

end Reading

end FileStoreEngine

end BeetleMemory.Store
