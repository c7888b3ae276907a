import BeetleMemory.Lib.OrderedMap
import BeetleMemory.Store.File.Commit
import BeetleMemory.Store.File.Slots

/-! What restoring an image does to the files, from whatever disk it starts: each file of an
entry ends up as the image says, and the event log is cut back to its old length before the
new events follow.
-/

namespace BeetleMemory.Store

open Std FileSystem

variable {Value : Type}

namespace FileStoreEngine

/-! ## Entries -/

/-- The files one entry assigns. -/
def entryWrites {α : Type} (format : FileFormat Value) (toBytes : α → Bytes)
    (paths : PhysicalKeyPaths) (entry : FileTransactionValue α)
    : List (FilePath × Option Bytes) :=
  match entry.value with
  | some value =>
      [(paths.indexPath.tmp, none),
        (paths.indexPath, some (indexBytes format entry.address.key)),
        (paths.dataPath.tmp, none), (paths.dataPath, some (toBytes value))]
  | none => [(paths.dataPath, none), (paths.indexPath, none), (paths.legacyPath, none)]

variable {engine : FileStoreEngine} {format : FileFormat Value}

theorem restoreFiles_settles {α : Type} {lane : Lane} {toBytes : α → Bytes}
    (entry : FileTransactionValue α)
    : Settles
        (restoreFiles format toBytes
          (engine.layout format.keyDigest lane entry.address) entry)
        (entryWrites format toBytes
          (engine.layout format.keyDigest lane entry.address) entry) := by
  unfold restoreFiles entryWrites
  cases entry.value with
  | some value =>
      exact (atomicWrite_settles _ (layout_indexPath_ne_tmp _)).append
        (atomicWrite_settles _ (layout_dataPath_ne_tmp _))
  | none =>
      exact (removeFile_settles _).append
        ((removeFile_settles _).append (removeFile_settles _))

/-- The effects of all entries of an image, once every address has its paths. -/
def entryEffects (engine : FileStoreEngine) (format : FileFormat Value)
    (image : FileTransactionImage Value)
    : List Effect :=
  image.json.flatMap (fun entry => restoreFiles format format.toVecPretty
      (engine.layout format.keyDigest .json entry.address) entry)
    ++ image.blobs.flatMap (fun entry => restoreFiles format id
      (engine.layout format.keyDigest .blob entry.address) entry)

/-- The files all entries of an image assign. -/
def imageWrites (engine : FileStoreEngine) (format : FileFormat Value)
    (image : FileTransactionImage Value)
    : List (FilePath × Option Bytes) :=
  image.json.flatMap (fun entry => entryWrites format format.toVecPretty
      (engine.layout format.keyDigest .json entry.address) entry)
    ++ image.blobs.flatMap (fun entry => entryWrites format id
      (engine.layout format.keyDigest .blob entry.address) entry)

private theorem settles_flatMap {α : Type} {effects : α → List Effect}
    {writes : α → List (FilePath × Option Bytes)} (items : List α)
    (each : ∀ item, Settles (effects item) (writes item))
    : Settles (items.flatMap effects) (items.flatMap writes) := by
  induction items with
  | nil => exact .nil
  | cons item rest ih => exact (each item).append ih

/-- Restoring the entries comes down to their assignments. -/
theorem entryEffects_settles (image : FileTransactionImage Value)
    : Settles (engine.entryEffects format image) (engine.imageWrites format image) :=
  (settles_flatMap _ restoreFiles_settles).append (settles_flatMap _ restoreFiles_settles)

/-! ## The last entry of a slot -/

/-- An entry assigns the data file of its slot alone, among data files. -/
theorem dataPath_notMem_entryWrites {α : Type} {lane lane' : Lane} {toBytes : α → Bytes}
    {entry : FileTransactionValue α} {address : Address}
    (apart : ¬ (lane = lane' ∧ engine.SameSlot format.keyDigest lane address entry.address))
    : (engine.layout format.keyDigest lane address).dataPath
      ∉ (entryWrites format toBytes
        (engine.layout format.keyDigest lane' entry.address) entry).map Prod.fst := by
  have data := mt layout_dataPath_eq_iff.mp apart
  have legacy : (engine.layout format.keyDigest lane address).dataPath
      ≠ (engine.layout format.keyDigest lane' entry.address).legacyPath := by simp [layout]
  unfold entryWrites
  cases entry.value with
  | some value =>
      simp [layout_dataPath_ne_tmp, layout_dataPath_ne_indexPath, data]
  | none => simp [layout_dataPath_ne_indexPath, data, legacy]

/-- An entry assigns the index file of its slot alone, among index files. -/
theorem indexPath_notMem_entryWrites {α : Type} {lane lane' : Lane} {toBytes : α → Bytes}
    {entry : FileTransactionValue α} {address : Address}
    (apart : ¬ (lane = lane' ∧ engine.SameSlot format.keyDigest lane address entry.address))
    : (engine.layout format.keyDigest lane address).indexPath
      ∉ (entryWrites format toBytes
        (engine.layout format.keyDigest lane' entry.address) entry).map Prod.fst := by
  have index := mt layout_indexPath_eq_iff.mp apart
  have data : (engine.layout format.keyDigest lane address).indexPath
      ≠ (engine.layout format.keyDigest lane' entry.address).dataPath :=
    layout_dataPath_ne_indexPath.symm
  have legacy : (engine.layout format.keyDigest lane address).indexPath
      ≠ (engine.layout format.keyDigest lane' entry.address).legacyPath := by simp [layout]
  unfold entryWrites
  cases entry.value with
  | some value => simp [layout_indexPath_ne_tmp, data, index]
  | none => simp [data, index, legacy]

/-- What one entry leaves in its slot. -/
theorem settle_entryWrites {α : Type} {lane : Lane} {toBytes : α → Bytes}
    (entry : FileTransactionValue α) (before : FilePath → Option Bytes)
    : settle (entryWrites format toBytes
          (engine.layout format.keyDigest lane entry.address) entry) before
          (engine.layout format.keyDigest lane entry.address).dataPath
        = entry.value.map toBytes
      ∧ settle (entryWrites format toBytes
          (engine.layout format.keyDigest lane entry.address) entry) before
          (engine.layout format.keyDigest lane entry.address).indexPath
        = entry.value.map (fun _ => indexBytes format entry.address.key) := by
  have apart : (engine.layout format.keyDigest lane entry.address).dataPath
      ≠ (engine.layout format.keyDigest lane entry.address).indexPath :=
    layout_dataPath_ne_indexPath
  have scratch : ∀ path : FilePath,
      (engine.layout format.keyDigest lane entry.address).indexPath ≠ path.tmp :=
    layout_indexPath_ne_tmp
  unfold entryWrites
  cases entry.value with
  | some value =>
      constructor
      · simp [settle]
      · simp [settle, Function.update_of_ne apart.symm,
          Function.update_of_ne (scratch _)]
  | none =>
      have legacy : (engine.layout format.keyDigest lane entry.address).dataPath
          ≠ (engine.layout format.keyDigest lane entry.address).legacyPath := by simp [layout]
      have legacy' : (engine.layout format.keyDigest lane entry.address).indexPath
          ≠ (engine.layout format.keyDigest lane entry.address).legacyPath := by simp [layout]
      constructor
      · simp [settle, Function.update_of_ne legacy, Function.update_of_ne apart]
      · simp [settle, Function.update_of_ne legacy']

/-- No later entry of the list shares the slot of this one. -/
def LastInSlot {α : Type} (engine : FileStoreEngine) (digest : KeyDigest) (lane : Lane)
    (entries : List (FileTransactionValue α)) (entry : FileTransactionValue α)
    : Prop :=
  ∃ earlier later, entries = earlier ++ entry :: later
    ∧ ∀ other ∈ later, ¬ engine.SameSlot digest lane entry.address other.address

/-- The last entry of a slot decides what the slot holds. -/
theorem LastInSlot.settle {α : Type} {lane : Lane}
    {entries : List (FileTransactionValue α)} {entry : FileTransactionValue α}
    (last : engine.LastInSlot format.keyDigest lane entries entry) (toBytes : α → Bytes)
    (before : FilePath → Option Bytes)
    : FileSystem.settle (entries.flatMap fun e => entryWrites format toBytes
          (engine.layout format.keyDigest lane e.address) e) before
          (engine.layout format.keyDigest lane entry.address).dataPath
        = entry.value.map toBytes
      ∧ FileSystem.settle (entries.flatMap fun e => entryWrites format toBytes
          (engine.layout format.keyDigest lane e.address) e) before
          (engine.layout format.keyDigest lane entry.address).indexPath
        = entry.value.map (fun _ => indexBytes format entry.address.key) := by
  obtain ⟨earlier, later, rfl, apart⟩ := last
  have data : (engine.layout format.keyDigest lane entry.address).dataPath
      ∉ (later.flatMap fun e => entryWrites format toBytes
        (engine.layout format.keyDigest lane e.address) e).map Prod.fst := by
    rw [List.map_flatMap, List.mem_flatMap]
    rintro ⟨other, member, assigned⟩
    exact dataPath_notMem_entryWrites (fun same => apart other member same.2) assigned
  have index : (engine.layout format.keyDigest lane entry.address).indexPath
      ∉ (later.flatMap fun e => entryWrites format toBytes
        (engine.layout format.keyDigest lane e.address) e).map Prod.fst := by
    rw [List.map_flatMap, List.mem_flatMap]
    rintro ⟨other, member, assigned⟩
    exact indexPath_notMem_entryWrites (fun same => apart other member same.2) assigned
  simp only [List.flatMap_append, List.flatMap_cons, settle_append]
  rw [settle_of_notMem data, settle_of_notMem index]
  exact settle_entryWrites entry _

/-- The last document entry of a slot decides its files, as blobs lie elsewhere. -/
theorem settle_imageWrites_json {image : FileTransactionImage Value}
    {entry : FileTransactionValue Value}
    (last : engine.LastInSlot format.keyDigest .json image.json entry)
    (before : FilePath → Option Bytes)
    : settle (engine.imageWrites format image) before
          (engine.layout format.keyDigest .json entry.address).dataPath
        = entry.value.map format.toVecPretty
      ∧ settle (engine.imageWrites format image) before
          (engine.layout format.keyDigest .json entry.address).indexPath
        = entry.value.map (fun _ => indexBytes format entry.address.key) := by
  have data : (engine.layout format.keyDigest .json entry.address).dataPath
      ∉ (image.blobs.flatMap fun e => entryWrites format id
        (engine.layout format.keyDigest .blob e.address) e).map Prod.fst := by
    rw [List.map_flatMap, List.mem_flatMap]
    rintro ⟨other, -, assigned⟩
    exact dataPath_notMem_entryWrites (by simp) assigned
  have index : (engine.layout format.keyDigest .json entry.address).indexPath
      ∉ (image.blobs.flatMap fun e => entryWrites format id
        (engine.layout format.keyDigest .blob e.address) e).map Prod.fst := by
    rw [List.map_flatMap, List.mem_flatMap]
    rintro ⟨other, -, assigned⟩
    exact indexPath_notMem_entryWrites (by simp) assigned
  rw [imageWrites, settle_append, settle_of_notMem data, settle_of_notMem index]
  exact last.settle _ before

/-- Keys with distinct slots, each listed once, are all last in their slots. -/
theorem lastInSlot_of_distinct {α : Type} {lane : Lane}
    {entries : List (FileTransactionValue α)} {addresses : ExtTreeSet Address}
    (listed : entries.map FileTransactionValue.address = addresses.toList)
    (distinct : ∀ a ∈ addresses, ∀ b ∈ addresses,
      engine.SameSlot format.keyDigest lane a b → a = b)
    {entry : FileTransactionValue α} (member : entry ∈ entries)
    : engine.LastInSlot format.keyDigest lane entries entry := by
  obtain ⟨earlier, later, rfl⟩ := List.append_of_mem member
  have inSet : ∀ e ∈ earlier ++ entry :: later, e.address ∈ addresses := by
    intro e h
    rw [← ExtTreeSet.mem_toList, ← listed]
    exact List.mem_map_of_mem h
  have nodup : (addresses.toList).Nodup := OrderedMap.toList_nodup addresses
  refine ⟨earlier, later, rfl, fun other inLater same => ?_⟩
  have equal := distinct _ (inSet entry member) _ (inSet other (by simp [inLater])) same
  rw [← listed] at nodup
  simp only [List.map_append, List.map_cons] at nodup
  have once := (List.nodup_cons.mp (List.nodup_append.mp nodup).2.1).1
  exact once (equal ▸ List.mem_map_of_mem inLater)

/-- Every address of an image has paths within the budget. -/
structure Addressed (engine : FileStoreEngine) (format : FileFormat Value)
    (image : FileTransactionImage Value)
    : Prop where
  json : ∀ entry ∈ image.json,
    engine.physicalKeyPaths format.keyDigest .json entry.address
      = .ok (engine.layout format.keyDigest .json entry.address)
  blobs : ∀ entry ∈ image.blobs,
    engine.physicalKeyPaths format.keyDigest .blob entry.address
      = .ok (engine.layout format.keyDigest .blob entry.address)

end FileStoreEngine

/-- Scripts that only issue effects do so one after the other. -/
theorem FileScript.inOrder_issue {α : Type} (items : List α) {script : α → FileScript Unit}
    {effects : α → List Effect} (each : ∀ item ∈ items, script item = .issue (effects item))
    (rest : List (FileScript Unit))
    : FileScript.inOrder (items.map script ++ rest)
      = (FileScript.issue (items.flatMap effects)).andThen (.inOrder rest) := by
  induction items with
  | nil => rfl
  | cons item items ih =>
      have later := ih fun i member => each i (List.mem_cons_of_mem _ member)
      have step : FileScript.inOrder ((item :: items).map script ++ rest)
          = (script item).andThen (.inOrder (items.map script ++ rest)) := rfl
      rw [step, later, each item (by simp)]
      simp [FileScript.andThen, FileScript.issue]

namespace FileStoreEngine

variable {engine : FileStoreEngine} {format : FileFormat Value}

/-- With every address in the budget, restoring an image fails nowhere. -/
theorem restoreTransactionImage_of_addressed {image : FileTransactionImage Value}
    (addressed : engine.Addressed format image)
    : engine.restoreTransactionImage format image
      = .issue (engine.entryEffects format image ++ restoreEvents format image.events) := by
  have json : ∀ entry ∈ image.json,
      engine.restoreEntry format .json format.toVecPretty entry
        = .issue (restoreFiles format format.toVecPretty
          (engine.layout format.keyDigest .json entry.address) entry) := by
    intro entry member
    simp [restoreEntry, addressed.json entry member]
  have blobs : ∀ entry ∈ image.blobs,
      engine.restoreEntry format .blob id entry
        = .issue (restoreFiles format id
          (engine.layout format.keyDigest .blob entry.address) entry) := by
    intro entry member
    simp [restoreEntry, addressed.blobs entry member]
  rw [restoreTransactionImage, List.append_assoc, FileScript.inOrder_issue _ json,
    FileScript.inOrder_issue _ blobs]
  simp [FileScript.inOrder, FileScript.andThen, FileScript.issue, entryEffects]

end FileStoreEngine

/-! ## The event log -/

section EventLog

variable {format : FileFormat Value}

theorem restoreEvents_confined (prefixLen : Nat) (events : List MemoryStoreEvent)
    : Confined (restoreEvents format (.append prefixLen events)) (· = eventsPath) := by
  intro effect member path touched
  simp only [restoreEvents, List.mem_cons, List.mem_flatMap, appendEventUnchecked] at member
  rcases member with rfl | rfl | ⟨event, -, rfl | rfl | member⟩
  · simpa [Effect.touched] using touched
  · simpa [Effect.touched] using touched
  · simp [Effect.touched] at touched
  · simpa [Effect.touched] using touched
  · exact appendBytes_confined _ _ _ member _ touched

theorem content_appendEvents (disk : Disk) (events : List MemoryStoreEvent)
    : (run disk (events.flatMap (appendEventUnchecked format))).content eventsPath
      = disk.content eventsPath ++ events.flatMap (eventLine format) := by
  induction events generalizing disk with
  | nil => simp
  | cons event rest ih =>
      simp only [List.flatMap_cons, run_append, ih]
      simp [appendEventUnchecked, content_appendBytes]

/-- However much follows the old log, restoring it leaves the old log and the new events. -/
theorem content_restoreEvents {disk : Disk} {log : Bytes} (events : List MemoryStoreEvent)
    (h : log <+: disk.content eventsPath)
    : (run disk (restoreEvents format (.append log.length events))).content eventsPath
      = log ++ events.flatMap (eventLine format) := by
  simp only [restoreEvents, run_cons, content_appendEvents]
  rw [content_setLen (by simpa using h)]

/-- The old log survives every beginning of a restore. -/
theorem restoreEvents_keeps_log {disk : Disk} {log : Bytes} (events : List MemoryStoreEvent)
    (h : log <+: disk.content eventsPath) (cut : Nat)
    : log <+: (run disk ((restoreEvents format (.append log.length events)).take cut)).content
        eventsPath := by
  refine run_take_invariant (fun d => log <+: d.content eventsPath) ?_ h cut
  intro effect member d kept
  simp only [restoreEvents, List.mem_cons, List.mem_flatMap, appendEventUnchecked,
    appendBytes, List.mem_map] at member
  rcases member with rfl | rfl | ⟨event, -, rfl | rfl | ⟨byte, -, rfl⟩⟩
  · simpa using kept
  · simp [content_setLen kept]
  · simpa using kept
  · simpa using kept
  · simpa using kept.trans (List.prefix_append _ _)

end EventLog

end BeetleMemory.Store
