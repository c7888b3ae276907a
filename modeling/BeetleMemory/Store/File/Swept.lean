import BeetleMemory.Store.File.Reached

/-! A crash may leave scratch files behind. No reader, lister or planner of the file backend looks
at them, so a disk can be thought of as swept clean of them.
-/

namespace BeetleMemory.Store

open Std FileSystem

/-- The disk without its scratch files. -/
def swept (disk : Disk) : Disk :=
  { disk with files := OrderedMap.retain (fun path => path.extension != "tmp") disk.files }

theorem swept_files_of_visible {disk : Disk} {path : FilePath} (visible : path.extension ≠ "tmp")
    : (swept disk).files[path]? = disk.files[path]? := by
  rw [swept, OrderedMap.retain_getElem?, if_pos (by simpa using visible)]

theorem swept_files_of_scratch {disk : Disk} {path : FilePath} (scratch : path.extension = "tmp")
    : (swept disk).files[path]? = none := by
  rw [swept, OrderedMap.retain_getElem?, if_neg (by simp [scratch])]

theorem swept_content_eventsPath (disk : Disk)
    : (swept disk).content eventsPath = disk.content eventsPath := by
  rw [Disk.content, swept_files_of_visible (by decide), Disk.content]

theorem childDirs_swept (disk : Disk) : (swept disk).childDirs = disk.childDirs :=
  rfl

namespace FileStoreEngine

/-- A disk and its swept form are the same store. -/
theorem sameStore_swept (disk : Disk) : SameStore (swept disk) disk where
  files _ _ visible _ := swept_files_of_visible visible
  log := swept_content_eventsPath disk

/-- What a clean disk keeps, every disk that is the same store keeps once it is swept. -/
theorem Keeps.swept_of_same {Value : Type} {engine : FileStoreEngine} {format : FileFormat Value}
    {clean disk : Disk} {held : Holdings} (keeps : engine.Keeps format clean held)
    (same : SameStore disk clean)
    : engine.Keeps format (swept disk) held := by
  have agree : ∀ {path : FilePath}, 2 ≤ path.dir.length → path.extension ≠ "tmp"
      → (swept disk).files[path]? = clean.files[path]? := by
    intro path depth visible
    rw [swept_files_of_visible visible]
    refine same.files path ?_ visible ?_
    all_goals
      rintro rfl
      exact absurd depth (by decide)
  constructor
  case paths => exact keeps.paths
  case data =>
    intro lane address bytes holds
    rw [agree (by simp [layout]) (by cases lane <;> simp [layout, Lane.extension]),
      keeps.data holds]
  case index =>
    intro lane address bytes holds
    rw [agree (by simp [layout]) (by simp [layout]), keeps.index holds]
  case only =>
    intro path depth member
    rw [ExtTreeMap.mem_iff_isSome_getElem?] at member
    by_cases scratch : path.extension = "tmp"
    · rw [swept_files_of_scratch scratch] at member
      cases member
    · rw [agree (by omega) scratch, ← ExtTreeMap.mem_iff_isSome_getElem?] at member
      exact keeps.only depth member
  case noLegacy =>
    intro path depth
    by_cases scratch : path.extension = "tmp"
    · exact swept_files_of_scratch scratch
    · rw [agree (by omega) scratch, keeps.noLegacy path depth]

/-! ## Reading a swept disk -/

variable {Value : Type} (engine : FileStoreEngine) (format : FileFormat Value) (disk : Disk)

theorem readFileBounded_swept (maxBytes : Nat) (stage : String) (path : FilePath)
    (visible : path.extension ≠ "tmp")
    : readFileBounded (swept disk) path maxBytes stage
      = readFileBounded disk path maxBytes stage := by
  simp only [readFileBounded, swept_files_of_visible visible]

theorem readKeyIndex_swept (path : FilePath) (visible : path.extension ≠ "tmp") (stage : String)
    : engine.readKeyIndex format (swept disk) path stage
      = engine.readKeyIndex format disk path stage := by
  simp only [readKeyIndex, readFileBounded_swept disk _ _ path visible]

/-- Readers that agree on all but scratch files read the same bytes. -/
theorem readPhysical_swept (lane : Lane) (address : Address)
    {readSwept readData : FilePath → Except Error (Option Bytes)}
    (same : ∀ path : FilePath, path.extension ≠ "tmp" → readSwept path = readData path)
    (stage : String)
    : engine.readPhysical format (swept disk) lane address readSwept stage
      = engine.readPhysical format disk lane address readData stage := by
  cases addressed : engine.physicalKeyPaths format.keyDigest lane address with
  | error error => simp [readPhysical, addressed, Fallible.error_bind]
  | ok paths =>
      obtain rfl := physicalKeyPaths_ok addressed
      have data := same (engine.layout format.keyDigest lane address).dataPath
        (by cases lane <;> simp [layout, Lane.extension])
      have legacy := same (engine.layout format.keyDigest lane address).legacyPath
        (by cases lane <;> simp [layout, Lane.extension])
      have index := engine.readKeyIndex_swept format disk
        (engine.layout format.keyDigest lane address).indexPath (by simp [layout])
      simp only [readPhysical, addressed, Fallible.ok_bind, data, legacy, requireKeyIndexMatches,
        index]

theorem getJsonValueUnlockedBounded_swept
    : engine.getJsonValueUnlockedBounded format (swept disk)
      = engine.getJsonValueUnlockedBounded format disk := by
  funext address maxBytes
  simp only [getJsonValueUnlockedBounded,
    engine.readPhysical_swept format disk _ _ (readFileBounded_swept disk _ _)]

theorem getBlobUnlockedBounded_swept
    : engine.getBlobUnlockedBounded format (swept disk)
      = engine.getBlobUnlockedBounded format disk := by
  funext address maxBytes
  simp only [getBlobUnlockedBounded,
    engine.readPhysical_swept format disk _ _ (readFileBounded_swept disk _ _)]

/-! ## Listing a swept disk -/

/-- A directory has the same files of any other extension, in the same order. -/
theorem filter_keys_swept (dir : List String) {extension : String} (visible : extension ≠ "tmp")
    : ((swept disk).childFiles dir).filter (·.extension = extension)
      = (disk.childFiles dir).filter (·.extension = extension) := by
  refine @List.Perm.eq_of_pairwise _ (fun a b => compare a b = .lt) _ _ ?_ ?_ ?_ ?_
  · intro a b _ _ less greater
    rw [OrientedOrd.eq_swap, less] at greater
    cases greater
  · exact (ExtTreeMap.ordered_keys.filter _).filter _
  · exact (ExtTreeMap.ordered_keys.filter _).filter _
  · have nodup : ∀ d : Disk, ((d.childFiles dir).filter (·.extension = extension)).Nodup :=
      fun d => ((OrderedMap.keys_nodup d.files).filter _).filter _
    refine (List.perm_ext_iff_of_nodup (nodup _) (nodup _)).mpr fun path => ?_
    simp only [Disk.childFiles, List.mem_filter, ExtTreeMap.mem_keys, decide_eq_true_eq]
    refine and_congr_left fun named => and_congr_left fun _ => ?_
    rw [ExtTreeMap.mem_iff_isSome_getElem?, ExtTreeMap.mem_iff_isSome_getElem?,
      swept_files_of_visible (named ▸ visible)]

theorem listIndexedKeys_swept (lane : Lane) (ns : String)
    : engine.listIndexedKeys format (swept disk) lane ns
      = engine.listIndexedKeys format disk lane ns := by
  simp only [listIndexedKeys, childDirs_swept, filter_keys_swept disk _ (by decide : "json" ≠ "tmp")]
  congr 1
  refine Fallible.mapM_congr fun entry member => ?_
  obtain ⟨shard, -, inShard⟩ := List.mem_flatMap.mp member
  obtain ⟨path, listed, rfl⟩ := List.mem_map.mp inShard
  have named : path.extension = "json" := by simpa using (List.mem_filter.mp listed).2
  have index := engine.readKeyIndex_swept format disk path (by simp [named])
  have data : ∀ shard, (swept disk).files.contains ⟨[lane.name, ns, "_v2", shard], path.stem,
      lane.extension⟩ = disk.files.contains ⟨[lane.name, ns, "_v2", shard], path.stem,
      lane.extension⟩ := by
    intro shard
    rw [ExtTreeMap.contains_eq_isSome_getElem?, ExtTreeMap.contains_eq_isSome_getElem?,
      swept_files_of_visible (by cases lane <;> simp [Lane.extension])]
  simp only [listIndexedKey, index, data]

theorem listKeysUnlocked_swept (lane : Lane) (ns : String)
    : engine.listKeysUnlocked format (swept disk) lane ns
      = engine.listKeysUnlocked format disk lane ns := by
  have legacy : listLegacyEncodedKeys (swept disk) lane ns = listLegacyEncodedKeys disk lane ns := by
    rw [listLegacyEncodedKeys, filter_keys_swept disk _ (by cases lane <;> decide),
      listLegacyEncodedKeys]
  simp only [listKeysUnlocked, listIndexedKeys_swept, legacy]

theorem entryCount_swept (lane : Lane)
    : engine.entryCount format (swept disk) lane = engine.entryCount format disk lane := by
  simp only [entryCount, childDirs_swept, listKeysUnlocked_swept]

theorem blobTotalBytes_swept
    : engine.blobTotalBytes format (swept disk) = engine.blobTotalBytes format disk := by
  have lengths : engine.blobValueLenUnlocked format (swept disk)
      = engine.blobValueLenUnlocked format disk := by
    funext address
    simp only [blobValueLenUnlocked, engine.readPhysical_swept format disk _ _
      fun path visible => congrArg Except.ok (swept_files_of_visible visible)]
  simp only [blobTotalBytes, childDirs_swept, listKeysUnlocked_swept, lengths]

/-- Scratch files play no part in planning. -/
theorem planTransaction_swept [DecidableEq Value] (rules : OwnerRules Value)
    (request : StoreTransactionRequest Value) (admission : StoreTransactionAdmission) (nowSecs : Nat)
    : engine.planTransaction format rules request admission nowSecs (swept disk)
      = engine.planTransaction format rules request admission nowSecs disk := by
  have prefixes : engine.loadPrefix format (swept disk) = engine.loadPrefix format disk := by
    funext capacity loaded prefixRead
    simp only [loadPrefix, getJsonValueUnlockedBounded_swept, listJsonKeysUnlocked,
      listKeysUnlocked_swept]
  have events := @swept_files_of_visible disk eventsPath (by decide)
  have log : ∀ capacity, transactionEventUsage format (swept disk) request capacity
      = transactionEventUsage format disk request capacity := by
    intro capacity
    simp only [transactionEventUsage, readEventsJsonlBounded, swept_content_eventsPath, events]
  simp only [planTransaction, loadTransactionContext, loadJson, prefixes, loadBlobs,
    getJsonValueUnlockedBounded_swept, getBlobUnlockedBounded_swept, jsonEntryCount, blobEntryCount,
    entryCount_swept, blobTotalBytes_swept, log]

end FileStoreEngine

end BeetleMemory.Store
