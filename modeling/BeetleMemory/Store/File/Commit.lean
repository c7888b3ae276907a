import BeetleMemory.Store.File.Reads
import BeetleMemory.Store.Planner

/-! The commit of the file backend and the recovery of a cut one, as the file effects they
issue. A script lists the effects up to the first error, so a crash of the process is a
beginning of its effects.
-/

namespace BeetleMemory.Store

open Std FileSystem

variable {Value : Type}

/-- The effects a computation issues, and how it ends. -/
structure FileScript (α : Type) where
  effects : List Effect
  result : Except Error α

namespace FileScript

/-- A computation that only issues effects. -/
def issue (effects : List Effect) : FileScript Unit :=
  ⟨effects, .ok ()⟩

/-- The second script after the first, unless the first fails. -/
def andThen {α : Type} (first : FileScript Unit) (second : FileScript α) : FileScript α :=
  match first.result with
  | .ok () => ⟨first.effects ++ second.effects, second.result⟩
  | .error error => ⟨first.effects, .error error⟩

/-- Scripts one after the other. -/
def inOrder (scripts : List (FileScript Unit)) : FileScript Unit :=
  scripts.foldr andThen (issue [])

end FileScript

/-- The bytes of one event and its newline. -/
def eventLine (format : FileFormat Value) (event : MemoryStoreEvent) : Bytes :=
  format.eventToVec event ++ [10]

def appendEventUnchecked (format : FileFormat Value) (event : MemoryStoreEvent)
    : List Effect :=
  .createDirAll eventsPath.dir :: .openOrCreate eventsPath
    :: appendBytes eventsPath (eventLine format event)

/-- The event log as an image describes it. -/
def restoreEvents (format : FileFormat Value) : FileTransactionEventsImage → List Effect
  | .append prefixLen events =>
      .openOrCreate eventsPath :: .setLen eventsPath prefixLen
        :: events.flatMap (appendEventUnchecked format)
  | .replace events => atomicWrite eventsPath (events.flatMap (eventLine format))

namespace FileStoreEngine

def writeKeyIndex (format : FileFormat Value) (path : FilePath) (key : String)
    : List Effect :=
  atomicWrite path (format.keyIndexToVecPretty ⟨2, key⟩)

/-- The files of one entry of an image: index before data, or data before index when they
are removed.
-/
def restoreFiles {α : Type} (format : FileFormat Value) (toBytes : α → Bytes)
    (paths : PhysicalKeyPaths) (entry : FileTransactionValue α)
    : List Effect :=
  match entry.value with
  | some value =>
      writeKeyIndex format paths.indexPath entry.address.key
        ++ atomicWrite paths.dataPath (toBytes value)
  | none =>
      [.removeFile paths.dataPath, .removeFile paths.indexPath, .removeFile paths.legacyPath]

def restoreEntry {α : Type} (engine : FileStoreEngine) (format : FileFormat Value)
    (lane : Lane) (toBytes : α → Bytes) (entry : FileTransactionValue α)
    : FileScript Unit :=
  match engine.physicalKeyPaths format.keyDigest lane entry.address with
  | .error error => ⟨[], .error error⟩
  | .ok paths => .issue (restoreFiles format toBytes paths entry)

def restoreTransactionImage (engine : FileStoreEngine) (format : FileFormat Value)
    (image : FileTransactionImage Value)
    : FileScript Unit :=
  .inOrder
    (image.json.map (engine.restoreEntry format .json format.toVecPretty)
      ++ image.blobs.map (engine.restoreEntry format .blob id)
      ++ [.issue (restoreEvents format image.events)])

def writeTransactionJournal (format : FileFormat Value)
    (journal : FileTransactionJournal Value)
    : List Effect :=
  atomicWrite transactionMarkerPath (format.journalToVec journal)

/-! ## Recovery -/

/-- The longest journal that is read. -/
def journalMaxBytes (engine : FileStoreEngine) : Nat :=
  engine.capacity.importMaxBytes + engine.capacity.blobMaxBytes * 3

def readTransactionJournalReadOnly (engine : FileStoreEngine) (format : FileFormat Value)
    (disk : Disk)
    : Except Error (Option (FileTransactionJournal Value)) := do
  match ← readFileBounded disk transactionMarkerPath engine.journalMaxBytes
    "file_store_transaction_recovery" with
  | none => pure none
  | some bytes => do
      let journal ←
        match format.journalFromSlice bytes with
        | .ok journal => pure journal
        | .error message =>
            .error
              (.config
                (if format.hasCompleteJournalShape bytes then transactionRepairRequiredStage
                else "store_transaction_recovery_required")
                s!"file transaction journal is not recoverable: {message}")
      require (journal.schemaVersion = 2)
        (.config transactionRepairRequiredStage
          s!"unsupported file transaction journal schema {journal.schemaVersion}")
      journal.verifyChecksum format
      journal.validateImageAddressContract
      pure (some journal)

/-- A prepared transaction is undone and a committed one is redone. -/
def recoverValidatedTransaction (engine : FileStoreEngine) (format : FileFormat Value)
    : Option (FileTransactionJournal Value) → FileScript Unit
  | none => .issue []
  | some journal =>
      let image :=
        match journal.state with
        | .prepared => journal.before
        | .committed => journal.after
      (engine.restoreTransactionImage format image).andThen
        (.issue [.removeFile transactionMarkerPath])

def recoverTransactionIfNeeded (engine : FileStoreEngine) (format : FileFormat Value)
    (disk : Disk)
    : FileScript Unit :=
  match engine.readTransactionJournalReadOnly format disk with
  | .error error => ⟨[], .error error⟩
  | .ok journal => engine.recoverValidatedTransaction format journal

/-! ## Loading what a transaction touches -/

/-- The values read so far and their size, with one more address read into them. The
budget for the address is what the earlier ones left of the limit.
-/
def loadTouched {α : Type} (maxBytes : Nat)
    (read : Address → Nat → Except Error (Option (α × Nat)))
    (loaded : ExtTreeMap Address α × Nat) (address : Address)
    : Except Error (ExtTreeMap Address α × Nat) := do
  match ← read address (maxBytes - loaded.2) with
  | none => pure loaded
  | some (value, bytes) => pure (loaded.1.insert address value, loaded.2 + bytes)

/-- The keys under one prefix read, except those already read. -/
def loadPrefix (engine : FileStoreEngine) (format : FileFormat Value) (disk : Disk)
    (capacity : StoreCapacityBudget) (loaded : ExtTreeMap Address Value × Nat)
    (prefixRead : Address)
    : Except Error (ExtTreeMap Address Value × Nat) := do
  let keys ← engine.listJsonKeysUnlocked format disk prefixRead.ns
  keys.toList.foldlM
    (fun loaded key =>
      if !startsWith key prefixRead.key || loaded.1.contains ⟨prefixRead.ns, key⟩ then
        pure loaded
      else
        loadTouched capacity.snapshotMaxBytes (engine.getJsonValueUnlockedBounded format disk)
          loaded ⟨prefixRead.ns, key⟩) loaded

/-- The documents a request reads by address or by prefix, before dependencies. -/
def loadJson (engine : FileStoreEngine) (format : FileFormat Value) (disk : Disk)
    (readSet : StoreTransactionReadSet) (capacity : StoreCapacityBudget)
    : Except Error (ExtTreeMap Address Value) := do
  let loaded ← readSet.json.toList.foldlM
    (loadTouched capacity.snapshotMaxBytes (engine.getJsonValueUnlockedBounded format disk))
    (∅, 0)
  let loaded ← readSet.jsonPrefixes.toList.foldlM (engine.loadPrefix format disk capacity)
    loaded
  pure loaded.1

def loadBlobs (engine : FileStoreEngine) (format : FileFormat Value) (disk : Disk)
    (readSet : StoreTransactionReadSet) (capacity : StoreCapacityBudget)
    : Except Error (ExtTreeMap Address Bytes) := do
  let loaded ← readSet.blobs.toList.foldlM
    (loadTouched capacity.blobMaxBytes (engine.getBlobUnlockedBounded format disk)) (∅, 0)
  pure loaded.1

/-- The number of events, the ids of the request the log already has, and the length of
the log.
-/
def transactionEventUsage (format : FileFormat Value) (disk : Disk)
    (request : StoreTransactionRequest Value) (capacity : StoreCapacityBudget)
    : Except Error (Nat × ExtTreeSet String × Nat) := do
  let eventIds := request.mutations.filterMap mutationEventId
  let events ← readEventsJsonlBounded format disk capacity capacity.snapshotMaxBytes
    "memory_write_transaction"
  let existing := (events.map MemoryStoreEvent.eventId).filter eventIds.contains
  pure (events.length, ExtTreeSet.ofList existing, (disk.content eventsPath).length)

def loadTransactionContext (engine : FileStoreEngine) (format : FileFormat Value)
    (rules : OwnerRules Value) (request : StoreTransactionRequest Value)
    (capacity : StoreCapacityBudget) (disk : Disk)
    : Except Error (StoreTransactionContext Value × Nat) := do
  let json ← engine.loadJson format disk request.readSet capacity
  let json ← expandOwnerTransactionDependencies format.toEncoding rules request capacity json
    (fun address remaining => do
      let found ← engine.getJsonValueUnlockedBounded format disk address remaining
      pure (found.map Prod.fst))
  let blobs ← engine.loadBlobs format disk request.readSet capacity
  let (eventCount, existingEventIds, prefixLen) ←
    transactionEventUsage format disk request capacity
  let jsonEntries ← engine.jsonEntryCount format disk
  let blobEntries ← engine.blobEntryCount format disk
  let blobBytes ← engine.blobTotalBytes format disk
  pure
    ({ touched := { json, blobs, events := [] }
       usage := { kvEntries := jsonEntries + blobEntries, blobBytes, eventCount }
       existingEventIds }, prefixLen)

/-! ## The commit -/

/-- The events among a list of mutations. -/
def appendedEvents (mutations : List (StoreEngineMutation Value)) : List MemoryStoreEvent :=
  mutations.filterMap fun
    | .appendEvent event => some event
    | _ => none

/-- A commit once it is planned: the journal and the report it returns. -/
structure PlannedCommit (Value : Type) where
  journal : FileTransactionJournal Value
  report : StoreTransactionReport

/-- Everything a commit does before its first write, on a store without a journal. -/
def planTransaction [DecidableEq Value] (engine : FileStoreEngine) (format : FileFormat Value)
    (rules : OwnerRules Value) (request : StoreTransactionRequest Value)
    (admission : StoreTransactionAdmission) (nowSecs : Nat) (disk : Disk)
    : Except Error (PlannedCommit Value) := do
  admission.validateInsideEngineFence engine.capacity engine.admissionAuthority nowSecs
  let (context, prefixLen) ←
    engine.loadTransactionContext format rules request admission.operationCapacity disk
  let plan ← applyTransaction format.toEncoding rules admission request context
  let before := transactionImage context.touched.json context.touched.blobs request.readSet
    (.append prefixLen [])
  let after := transactionImage plan.nextTouched.json plan.nextTouched.blobs request.readSet
    (.append prefixLen (appendedEvents plan.effectiveMutations))
  pure ⟨.new format request.transactionId before after, plan.report⟩

/-- The writes of a planned commit: the prepared journal, the after image, the committed
journal, and the removal of the journal.
-/
def commitScript (engine : FileStoreEngine) (format : FileFormat Value)
    (planned : PlannedCommit Value)
    : FileScript StoreTransactionReport :=
  (FileScript.issue (writeTransactionJournal format planned.journal)).andThen
    ((engine.restoreTransactionImage format planned.journal.after).andThen
      ((FileScript.issue
          (writeTransactionJournal format (planned.journal.markCommitted format)
            ++ [.removeFile transactionMarkerPath])).andThen
        ⟨[], .ok planned.report⟩))

def commitTransactionAdmitted [DecidableEq Value] (engine : FileStoreEngine)
    (format : FileFormat Value) (rules : OwnerRules Value)
    (request : StoreTransactionRequest Value) (admission : StoreTransactionAdmission)
    (nowSecs : Nat) (disk : Disk)
    : FileScript StoreTransactionReport :=
  let recovery := engine.recoverTransactionIfNeeded format disk
  recovery.andThen
    (match engine.planTransaction format rules request admission nowSecs
        (run disk recovery.effects) with
    | .error error => ⟨[], .error error⟩
    | .ok planned => engine.commitScript format planned)

end FileStoreEngine

end BeetleMemory.Store
