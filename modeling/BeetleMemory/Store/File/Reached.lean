import BeetleMemory.Store.File.CrashAtomicity
import BeetleMemory.Store.File.Open

/-! The disks a file store reaches by commits: each keeps documents and blobs, one key to a
slot, and has no journal.
-/

namespace BeetleMemory.Store

open Std FileSystem

variable {Value : Type}

namespace FileStoreEngine

variable {engine : FileStoreEngine} {format : FileFormat Value} {disk : Disk}
  {held : Holdings} {lane : Lane}

/-- The holdings once a key has taken, or left empty, its slot. -/
def occupy (engine : FileStoreEngine) (digest : KeyDigest) (held : Holdings) (lane : Lane)
    (address : Address) (bytes : Option Bytes)
    : Holdings := fun lane' other =>
  if lane' = lane ∧ engine.SameSlot digest lane other address then
    if other = address then bytes else none
  else held lane' other

theorem occupy_self {address : Address} {bytes : Option Bytes}
    : engine.occupy format.keyDigest held lane address bytes lane address = bytes := by
  simp [occupy, SameSlot]

theorem occupy_of_apart {lane' : Lane} {address other : Address} {bytes : Option Bytes}
    (apart : ¬ (lane' = lane ∧ engine.SameSlot format.keyDigest lane' other address))
    : engine.occupy format.keyDigest held lane address bytes lane' other
      = held lane' other := by
  refine if_neg ?_
  rintro ⟨rfl, slot⟩
  exact apart ⟨rfl, slot⟩

/-- Who holds something after a key has taken its slot: the key itself, or a key of another
slot that held it before.
-/
theorem occupy_eq_some {lane' : Lane} {address other : Address} {bytes : Option Bytes}
    {found : Bytes}
    (holds : engine.occupy format.keyDigest held lane address bytes lane' other = some found)
    : (lane' = lane ∧ other = address ∧ bytes = some found)
      ∨ (¬ (lane' = lane ∧ engine.SameSlot format.keyDigest lane' other address)
        ∧ held lane' other = some found) := by
  by_cases apart : lane' = lane ∧ engine.SameSlot format.keyDigest lane' other address
  · obtain ⟨rfl, slot⟩ := apart
    rw [occupy, if_pos ⟨rfl, slot⟩] at holds
    split at holds
    next same => exact .inl ⟨rfl, same, holds⟩
    next => cases holds
  · exact .inr ⟨apart, (occupy_of_apart apart).symm.trans holds⟩

/-- Apart from its slot, an entry assigns nothing to any file. -/
theorem entryWrites_none {α : Type} {toBytes : α → Bytes} {paths : PhysicalKeyPaths}
    {entry : FileTransactionValue α} {write : FilePath × Option Bytes}
    (member : write ∈ entryWrites format toBytes paths entry)
    (data : write.1 ≠ paths.dataPath) (index : write.1 ≠ paths.indexPath)
    : write.2 = none := by
  unfold entryWrites at member
  cases present : entry.value with
  | some value =>
      simp only [present, List.mem_cons, List.not_mem_nil, or_false] at member
      rcases member with rfl | rfl | rfl | rfl
      · rfl
      · exact absurd rfl index
      · rfl
      · exact absurd rfl data
  | none =>
      simp only [present, List.mem_cons, List.not_mem_nil, or_false] at member
      rcases member with rfl | rfl | rfl <;> rfl

/-- A file outside the entry's slot is as it was, or it is gone. -/
theorem restoreFiles_elsewhere {α : Type} {toBytes : α → Bytes}
    {entry : FileTransactionValue α} {path : FilePath}
    (data : path ≠ (engine.layout format.keyDigest lane entry.address).dataPath)
    (index : path ≠ (engine.layout format.keyDigest lane entry.address).indexPath)
    : (run disk (restoreFiles format toBytes
          (engine.layout format.keyDigest lane entry.address) entry)).files[path]? = none
      ∨ (run disk (restoreFiles format toBytes
          (engine.layout format.keyDigest lane entry.address) entry)).files[path]?
        = disk.files[path]? := by
  rw [restoreFiles_settles]
  by_cases assigned : path ∈ (entryWrites format toBytes
    (engine.layout format.keyDigest lane entry.address) entry).map Prod.fst
  · left
    refine settle_eq assigned ?_
    rintro write member rfl
    exact entryWrites_none member data index
  · exact .inr (settle_of_notMem assigned)

/-- Restoring one entry keeps one key to a slot: the entry's key takes the slot over. -/
theorem Keeps.restoreFiles (keeps : engine.Keeps format disk held) {α : Type}
    (toBytes : α → Bytes) (entry : FileTransactionValue α)
    (addressed : engine.physicalKeyPaths format.keyDigest lane entry.address
      = .ok (engine.layout format.keyDigest lane entry.address))
    : engine.Keeps format
        (run disk (restoreFiles format toBytes
          (engine.layout format.keyDigest lane entry.address) entry))
        (engine.occupy format.keyDigest held lane entry.address
          (entry.value.map toBytes)) where
  paths holds := by
    rcases occupy_eq_some holds with ⟨rfl, rfl, -⟩ | ⟨-, holds⟩
    · exact addressed
    · exact keeps.paths holds
  data holds := by
    rw [restoreFiles_settles]
    rcases occupy_eq_some holds with ⟨rfl, rfl, value⟩ | ⟨apart, holds⟩
    · rw [(settle_entryWrites entry _).1, value]
    · rw [settle_of_notMem (dataPath_notMem_entryWrites apart), keeps.data holds]
  index holds := by
    rw [restoreFiles_settles]
    rcases occupy_eq_some holds with ⟨rfl, rfl, value⟩ | ⟨apart, holds⟩
    · obtain ⟨v, present, -⟩ := Option.map_eq_some_iff.mp value
      rw [(settle_entryWrites entry _).2, present, Option.map_some]
    · rw [settle_of_notMem (indexPath_notMem_entryWrites apart), keeps.index holds]
  only := by
    intro path depth member
    rw [ExtTreeMap.mem_iff_isSome_getElem?] at member
    by_cases data : path = (engine.layout format.keyDigest lane entry.address).dataPath
    · subst data
      rw [restoreFiles_settles, (settle_entryWrites entry _).1] at member
      obtain ⟨bytes, value⟩ := Option.isSome_iff_exists.mp member
      exact ⟨lane, entry.address, bytes, occupy_self.trans value, .inl rfl⟩
    · by_cases index : path = (engine.layout format.keyDigest lane entry.address).indexPath
      · subst index
        rw [restoreFiles_settles, (settle_entryWrites entry _).2, Option.isSome_map] at member
        obtain ⟨value, present⟩ := Option.isSome_iff_exists.mp member
        refine ⟨lane, entry.address, toBytes value, ?_, .inr rfl⟩
        rw [occupy_self, present, Option.map_some]
      · rcases restoreFiles_elsewhere data index with gone | kept
        · rw [gone] at member
          cases member
        · rw [kept, ← ExtTreeMap.mem_iff_isSome_getElem?] at member
          obtain ⟨lane', owner, bytes, holds, place⟩ := keeps.only depth member
          refine ⟨lane', owner, bytes, ?_, place⟩
          rw [occupy_of_apart, holds]
          rintro same
          rcases place with rfl | rfl
          · exact data (layout_dataPath_eq_iff.mpr same)
          · exact index (layout_indexPath_eq_iff.mpr same)
  noLegacy := by
    intro path depth
    have data : path ≠ (engine.layout format.keyDigest lane entry.address).dataPath := by
      rintro rfl
      simp [layout] at depth
    have index : path ≠ (engine.layout format.keyDigest lane entry.address).indexPath := by
      rintro rfl
      simp [layout] at depth
    rcases restoreFiles_elsewhere data index with gone | kept
    · exact gone
    · rw [kept, keeps.noLegacy path depth]

/-! ## Whole images -/

/-- The entries once a key has taken, or left empty, its slot. -/
def takeSlot {α : Type} (engine : FileStoreEngine) (digest : KeyDigest) (lane : Lane)
    (entries : ExtTreeMap Address α) (entry : FileTransactionValue α)
    : ExtTreeMap Address α :=
  let others := OrderedMap.retain
    (fun other => !decide (engine.SameSlot digest lane other entry.address)) entries
  match entry.value with
  | some value => others.insert entry.address value
  | none => others

theorem takeSlot_getElem? {α : Type} (digest : KeyDigest) (entries : ExtTreeMap Address α)
    (entry : FileTransactionValue α) (other : Address)
    : (engine.takeSlot digest lane entries entry)[other]?
      = if engine.SameSlot digest lane other entry.address then
          if other = entry.address then entry.value else none
        else entries[other]? := by
  have self : engine.SameSlot digest lane entry.address entry.address := ⟨rfl, rfl⟩
  unfold takeSlot
  cases entry.value with
  | none =>
      simp only [OrderedMap.retain_getElem?]
      by_cases slot : engine.SameSlot digest lane other entry.address <;> simp [slot]
  | some value =>
      simp only [ExtTreeMap.getElem?_insert, Std.compare_eq_iff_eq, OrderedMap.retain_getElem?]
      by_cases same : entry.address = other
      · subst same
        simp [self]
      · by_cases slot : engine.SameSlot digest lane other entry.address <;>
          simp [slot, same, Ne.symm same]

theorem occupy_holdings_json (docs : ExtTreeMap Address Value)
    (blobs : ExtTreeMap Address Bytes) (entry : FileTransactionValue Value)
    : engine.occupy format.keyDigest (holdings format docs blobs) .json entry.address
        (entry.value.map format.toVecPretty)
      = holdings format (engine.takeSlot format.keyDigest .json docs entry) blobs := by
  funext lane other
  cases lane with
  | blob => simp [occupy, holdings]
  | json =>
      simp only [occupy, holdings, takeSlot_getElem?, true_and]
      split_ifs <;> rfl

theorem occupy_holdings_blob (docs : ExtTreeMap Address Value)
    (blobs : ExtTreeMap Address Bytes) (entry : FileTransactionValue Bytes)
    : engine.occupy format.keyDigest (holdings format docs blobs) .blob entry.address
        (entry.value.map id)
      = holdings format docs (engine.takeSlot format.keyDigest .blob blobs entry) := by
  funext lane other
  cases lane with
  | json => simp [occupy, holdings]
  | blob =>
      simp only [occupy, holdings, takeSlot_getElem?, true_and]
      split_ifs <;> simp

/-- The documents and blobs once all entries of an image have taken their slots in turn. -/
def imageDocs (engine : FileStoreEngine) (digest : KeyDigest)
    (docs : ExtTreeMap Address Value) (image : FileTransactionImage Value)
    : ExtTreeMap Address Value :=
  image.json.foldl (engine.takeSlot digest .json) docs

def imageBlobs (engine : FileStoreEngine) (digest : KeyDigest)
    (blobs : ExtTreeMap Address Bytes) (image : FileTransactionImage Value)
    : ExtTreeMap Address Bytes :=
  image.blobs.foldl (engine.takeSlot digest .blob) blobs

/-- Restoring the entries of an image, one after the other. Witness: induction on the
documents, then on the blobs.
-/
theorem Keeps.entryEffects {docs : ExtTreeMap Address Value}
    {blobs : ExtTreeMap Address Bytes} (keeps : engine.KeepsState format disk docs blobs)
    {image : FileTransactionImage Value} (addressed : engine.Addressed format image)
    : engine.KeepsState format (run disk (engine.entryEffects format image))
        (engine.imageDocs format.keyDigest docs image)
        (engine.imageBlobs format.keyDigest blobs image) := by
  have json : ∀ (entries : List (FileTransactionValue Value)) (disk : Disk)
      (docs : ExtTreeMap Address Value), engine.KeepsState format disk docs blobs
      → (∀ entry ∈ entries, engine.physicalKeyPaths format.keyDigest .json entry.address
        = .ok (engine.layout format.keyDigest .json entry.address))
      → engine.KeepsState format
        (run disk (entries.flatMap fun entry => FileStoreEngine.restoreFiles format
          format.toVecPretty (engine.layout format.keyDigest .json entry.address) entry))
        (entries.foldl (engine.takeSlot format.keyDigest .json) docs) blobs := by
    intro entries
    induction entries with
    | nil => exact fun _ _ keeps _ => keeps
    | cons entry rest ih =>
        intro disk docs keeps paths
        have step := Keeps.restoreFiles keeps format.toVecPretty entry (paths entry (by simp))
        rw [occupy_holdings_json] at step
        rw [List.flatMap_cons, run_append, List.foldl_cons]
        exact ih _ _ step fun e member => paths e (List.mem_cons_of_mem _ member)
  have blob : ∀ (entries : List (FileTransactionValue Bytes)) (disk : Disk)
      (docs : ExtTreeMap Address Value) (blobs : ExtTreeMap Address Bytes),
      engine.KeepsState format disk docs blobs
      → (∀ entry ∈ entries, engine.physicalKeyPaths format.keyDigest .blob entry.address
        = .ok (engine.layout format.keyDigest .blob entry.address))
      → engine.KeepsState format
        (run disk (entries.flatMap fun entry => FileStoreEngine.restoreFiles format id
          (engine.layout format.keyDigest .blob entry.address) entry))
        docs (entries.foldl (engine.takeSlot format.keyDigest .blob) blobs) := by
    intro entries
    induction entries with
    | nil => exact fun _ _ _ keeps _ => keeps
    | cons entry rest ih =>
        intro disk docs blobs keeps paths
        have step := Keeps.restoreFiles keeps id entry (paths entry (by simp))
        rw [occupy_holdings_blob] at step
        rw [List.flatMap_cons, run_append, List.foldl_cons]
        exact ih _ _ _ step fun e member => paths e (List.mem_cons_of_mem _ member)
  rw [FileStoreEngine.entryEffects, run_append]
  exact blob _ _ _ _ (json _ _ _ keeps addressed.json) addressed.blobs

/-- Effects outside the two lanes change nothing that is kept. -/
theorem Keeps.run_outside (keeps : engine.Keeps format disk held) {effects : List Effect}
    (outside : Confined effects (fun path => path.dir.length < 2))
    : engine.Keeps format (run disk effects) held := by
  have same : ∀ path : FilePath, 2 ≤ path.dir.length
      → (run disk effects).files[path]? = disk.files[path]? :=
    fun path depth => outside.run disk (by omega)
  constructor
  case paths => exact keeps.paths
  case data => exact fun holds => (same _ (by simp [layout])).trans (keeps.data holds)
  case index => exact fun holds => (same _ (by simp [layout])).trans (keeps.index holds)
  case noLegacy => exact fun path depth =>
    (same path (by omega)).trans (keeps.noLegacy path depth)
  case only =>
    intro path depth member
    rw [ExtTreeMap.mem_iff_isSome_getElem?, same path (by omega),
      ← ExtTreeMap.mem_iff_isSome_getElem?] at member
    exact keeps.only depth member

private theorem journal_outside {effects : List Effect}
    (journal : Confined effects
      (fun p => p = transactionMarkerPath ∨ p = transactionMarkerPath.tmp))
    : Confined effects (fun path => path.dir.length < 2) := by
  refine journal.mono ?_
  rintro path (rfl | rfl) <;> decide

/-- A whole commit leaves the documents and blobs of its after image in their slots. -/
theorem Commits.keeps {docs : ExtTreeMap Address Value} {blobs : ExtTreeMap Address Bytes}
    {readSet : StoreTransactionReadSet} {events : List MemoryStoreEvent}
    {planned : PlannedCommit Value} (keeps : engine.KeepsState format disk docs blobs)
    (commits : engine.Commits format disk docs blobs readSet events planned.journal)
    : engine.KeepsState format (run disk (engine.commitScript format planned).effects)
        (engine.imageDocs format.keyDigest docs planned.journal.after)
        (engine.imageBlobs format.keyDigest blobs planned.journal.after) := by
  have addressed := commits.addressed commits.journaled.afterJson commits.journaled.afterBlobs
  have log : Confined (restoreEvents format planned.journal.after.events)
      (fun path => path.dir.length < 2) := by
    rw [commits.journaled.afterEvents]
    refine (restoreEvents_confined _ _).mono ?_
    rintro path rfl
    decide
  have prepared := keeps.run_outside
    (journal_outside (writeTransactionJournal_confined format planned.journal))
  have restored := (prepared.entryEffects addressed).run_outside log
  have committed := restored.run_outside
    (journal_outside
      (writeTransactionJournal_confined format (planned.journal.markCommitted format)))
  rw [commits.effects, restoreEffects, run_append, run_append, run_append, run_append]
  exact committed.run_outside (journal_outside removeMarker_confined)

/-! ## Runs of commits -/

section Runs

variable [DecidableEq Value] {rules : OwnerRules Value}
  {request : StoreTransactionRequest Value} {admission : StoreTransactionAdmission}
  {nowSecs : Nat}

/-- The script of a commit on a store without a journal is that of its plan. -/
theorem commitScript_result
    (missing : disk.files[transactionMarkerPath]? = none) {report : StoreTransactionReport}
    (ok : (engine.commitTransactionAdmitted format rules request admission nowSecs
      disk).result = .ok report)
    : ∃ planned,
        engine.planTransaction format rules request admission nowSecs disk = .ok planned
        ∧ (engine.commitTransactionAdmitted format rules request admission nowSecs
          disk).effects = (engine.commitScript format planned).effects := by
  unfold commitTransactionAdmitted at ok ⊢
  rw [recover_idle missing] at ok ⊢
  simp only [FileScript.issue, FileScript.andThen, run_nil, List.nil_append] at ok ⊢
  cases plan : engine.planTransaction format rules request admission nowSecs disk with
  | error error =>
      rw [plan] at ok
      cases ok
  | ok planned => exact ⟨planned, rfl, rfl⟩

/-- The disks reached from a new store by successful commits. -/
inductive Reached (engine : FileStoreEngine) (format : FileFormat Value)
    (rules : OwnerRules Value)
    : Disk → Prop where
  | opened (manifest : Bytes) : Reached engine format rules (openedDisk manifest)
  | commit {disk : Disk} (h : Reached engine format rules disk)
      {request : StoreTransactionRequest Value} {admission : StoreTransactionAdmission}
      {nowSecs : Nat} {report : StoreTransactionReport}
      (ok : (engine.commitTransactionAdmitted format rules request admission nowSecs
        disk).result = .ok report)
    : Reached engine format rules
        (run disk (engine.commitTransactionAdmitted format rules request admission nowSecs
          disk).effects)

omit [DecidableEq Value] in
theorem openedDisk_keeps (manifest : Bytes)
    : engine.KeepsState format (openedDisk manifest) ∅ ∅ := by
  have shallow : ∀ path : FilePath, path.dir.length ≠ 0
      → (openedDisk manifest).files[path]? = none := by
    intro path depth
    have lock : transactionLockPath ≠ path := by
      rintro rfl
      exact depth rfl
    have main : manifestPath ≠ path := by
      rintro rfl
      exact depth rfl
    simp [openedDisk, lock, main]
  constructor
  case noLegacy => exact fun path depth => shallow path (by omega)
  case only =>
    intro path depth member
    rw [ExtTreeMap.mem_iff_isSome_getElem?, shallow path (by omega)] at member
    cases member
  all_goals
    intro lane address bytes holds
    cases lane <;> simp [holdings] at holds

/-- Every reached disk keeps some documents and blobs and has no journal, by induction on
the commits.
-/
theorem Reached.keeps (lawful : format.Lawful) (reached : engine.Reached format rules disk)
    : (∃ docs blobs, engine.KeepsState format disk docs blobs)
      ∧ disk.files[transactionMarkerPath]? = none := by
  induction reached with
  | opened manifest => exact ⟨⟨_, _, openedDisk_keeps manifest⟩, by simp [openedDisk]; decide⟩
  | commit _ ok ih =>
      obtain ⟨⟨docs, blobs, keeps⟩, missing⟩ := ih
      obtain ⟨planned, plan, effects⟩ := commitScript_result missing ok
      obtain ⟨events, commits⟩ := planTransaction_commits keeps lawful plan
      rw [effects]
      exact ⟨⟨_, _, commits.keeps keeps⟩, (commits.done keeps.noLegacy).1⟩

end Runs

end FileStoreEngine

end BeetleMemory.Store
