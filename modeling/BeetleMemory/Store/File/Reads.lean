import BeetleMemory.Store.File.Journal

/-! How the file backend reads: bounded files, key indexes, single values, the keys of a
namespace, usage counts and the event log.
-/

namespace BeetleMemory.Store

open Std FileSystem

variable {Value : Type}

def readFileBounded (disk : Disk) (path : FilePath) (maxBytes : Nat) (stage : String)
    : Except Error (Option Bytes) :=
  match disk.files[path]? with
  | none => .ok none
  | some bytes => do
      require (bytes.length ≤ maxBytes)
        (.config stage s!"file bytes {bytes.length} exceed remaining budget {maxBytes}")
      pure (some bytes)

namespace FileStoreEngine

/-- The longest key index that is read. -/
def keyIndexMaxBytes (engine : FileStoreEngine) : Nat :=
  engine.capacity.logicalKeyMaxBytes + 1024

def readKeyIndex (engine : FileStoreEngine) (format : FileFormat Value) (disk : Disk)
    (path : FilePath) (stage : String)
    : Except Error (Option String) := do
  match ← readFileBounded disk path engine.keyIndexMaxBytes stage with
  | none => pure none
  | some bytes => do
      let index ← atStage stage (format.keyIndexFromSlice bytes)
      require (index.addressingVersion = 2)
        (.config stage s!"unsupported file store key index version {index.addressingVersion}")
      pure (some index.key)

def requireKeyIndexMatches (engine : FileStoreEngine) (format : FileFormat Value)
    (disk : Disk) (path : FilePath) (key stage : String)
    : Except Error Unit := do
  match ← engine.readKeyIndex format disk path stage with
  | none => .error (.config stage "file store physical data is missing key index")
  | some existing =>
      require (existing = key) (.config stage "file store physical key collision detected")

/-- The raw bytes of a key: its data file under a matching index, or else a file of the
older layout. The readers of documents and blobs, bounded or not, differ in the limit they
put on a file, in the stages they report and in what they make of the bytes.
-/
def readPhysical (engine : FileStoreEngine) (format : FileFormat Value) (disk : Disk)
    (lane : Lane) (address : Address)
    (readData : FilePath → Except Error (Option Bytes)) (stage : String)
    : Except Error (Option Bytes) := do
  let paths ← engine.physicalKeyPaths format.keyDigest lane address
  match ← readData paths.dataPath with
  | some bytes => do
      engine.requireKeyIndexMatches format disk paths.indexPath address.key stage
      pure (some bytes)
  | none => do
      let index ← engine.readKeyIndex format disk paths.indexPath stage
      require index.isNone
        (.config stage "file store key index has missing physical data")
      readData paths.legacyPath

def getJsonValueUnlocked (engine : FileStoreEngine) (format : FileFormat Value) (disk : Disk)
    (address : Address)
    : Except Error (Option Value) := do
  let stage := "file_store_json_read"
  match ← engine.readPhysical format disk .json address (fun path => .ok disk.files[path]?)
    stage with
  | none => pure none
  | some bytes => some <$> atStage stage (format.fromSlice bytes)

def getBlobUnlocked (engine : FileStoreEngine) (format : FileFormat Value) (disk : Disk)
    (address : Address)
    : Except Error (Option Bytes) :=
  engine.readPhysical format disk .blob address (fun path => .ok disk.files[path]?)
    "file_store_blob_read"

private def budgetStage : String := "store_consistent_read_budget_exceeded"

/-- A document and its compact size, which may not exceed the remaining budget. -/
def getJsonValueUnlockedBounded (engine : FileStoreEngine) (format : FileFormat Value)
    (disk : Disk) (address : Address) (maxLogicalBytes : Nat)
    : Except Error (Option (Value × Nat)) := do
  let stage := "store_consistent_read"
  match ← engine.readPhysical format disk .json address
    (readFileBounded disk · engine.capacity.snapshotMaxBytes budgetStage) stage with
  | none => pure none
  | some bytes => do
      let value ← atStage stage (format.fromSlice bytes)
      let logicalBytes := (format.toVec value).length
      require (logicalBytes ≤ maxLogicalBytes)
        (.config budgetStage
          s!"logical JSON bytes {logicalBytes} exceed remaining budget {maxLogicalBytes}")
      pure (some (value, logicalBytes))

def getBlobUnlockedBounded (engine : FileStoreEngine) (format : FileFormat Value)
    (disk : Disk) (address : Address) (maxBytes : Nat)
    : Except Error (Option (Bytes × Nat)) := do
  let found ← engine.readPhysical format disk .blob address
    (readFileBounded disk · maxBytes budgetStage) "store_consistent_read"
  pure (found.map fun bytes => (bytes, bytes.length))

/-! ## Listing and counting -/

private def listStage : String := "file_store_list"

/-- The key of one index file, whose data file and place must fit it. -/
def listIndexedKey (engine : FileStoreEngine) (format : FileFormat Value) (disk : Disk)
    (lane : Lane) (ns shard : String) (path : FilePath)
    : Except Error (Option String) := do
  let dataPath : FilePath := ⟨[lane.name, ns, "_v2", shard], path.stem, lane.extension⟩
  require (disk.files.contains dataPath)
    (.config listStage "file store key index has missing physical data")
  match ← engine.readKeyIndex format disk path listStage with
  | none => pure none
  | some key => do
      let expected ← engine.physicalKeyPaths format.keyDigest lane ⟨ns, key⟩
      require (expected.indexPath = path && expected.dataPath = dataPath)
        (.config listStage "file store physical key index does not match logical key")
      pure (some key)

/-- The keys of a namespace whose index files lie below its shards. -/
def listIndexedKeys (engine : FileStoreEngine) (format : FileFormat Value) (disk : Disk)
    (lane : Lane) (ns : String)
    : Except Error (List String) := do
  let indexBase := [lane.name, ns, "_keys"]
  let entries := (disk.childDirs indexBase).flatMap fun shard =>
    ((disk.childFiles (indexBase ++ [shard])).filter (·.extension = "json")).map (shard, ·)
  let keys ← entries.mapM fun entry =>
    engine.listIndexedKey format disk lane ns entry.1 entry.2
  pure (keys.filterMap id)

/-- The bytes two hexadecimal digits at a time stand for; as in the number parser of the
source, a plus sign may stand for the first digit.
-/
def hexDecode : List Char → Option Bytes
  | [] => some []
  | high :: low :: rest => do
      let h ← if high = '+' then some 0 else hexValue high
      let l ← hexValue low
      return UInt8.ofNat (16 * h + l) :: (← hexDecode rest)
  | [_] => none

def hexDecodeToString (value : String) : Option String :=
  (hexDecode value.toList).bind fun bytes => String.fromUTF8? ⟨bytes.toArray⟩

/-- The keys of files of the older layout, which are named by the key in hexadecimal. -/
def listLegacyEncodedKeys (disk : Disk) (lane : Lane) (ns : String) : List String :=
  ((disk.childFiles [lane.name, ns]).filter (·.extension = lane.extension)).filterMap
    (hexDecodeToString ·.stem)

/-- The keys of a namespace. -/
def listKeysUnlocked (engine : FileStoreEngine) (format : FileFormat Value) (disk : Disk)
    (lane : Lane) (ns : String)
    : Except Error (ExtTreeSet String) := do
  engine.validateDirectoryComponent ns listStage
  let indexed ← engine.listIndexedKeys format disk lane ns
  pure (ExtTreeSet.ofList (indexed ++ listLegacyEncodedKeys disk lane ns))

def listJsonKeysUnlocked (engine : FileStoreEngine) (format : FileFormat Value) (disk : Disk)
    (ns : String)
    : Except Error (ExtTreeSet String) :=
  engine.listKeysUnlocked format disk .json ns

/-- The number of entries of a lane, over the namespaces that have a directory. -/
def entryCount (engine : FileStoreEngine) (format : FileFormat Value) (disk : Disk)
    (lane : Lane)
    : Except Error Nat :=
  (disk.childDirs [lane.name]).foldlM
    (fun count ns => do
      let keys ← engine.listKeysUnlocked format disk lane ns
      pure (count + keys.size)) 0

def jsonEntryCount (engine : FileStoreEngine) (format : FileFormat Value) (disk : Disk)
    : Except Error Nat :=
  engine.entryCount format disk .json

def blobEntryCount (engine : FileStoreEngine) (format : FileFormat Value) (disk : Disk)
    : Except Error Nat :=
  engine.entryCount format disk .blob

def blobValueLenUnlocked (engine : FileStoreEngine) (format : FileFormat Value) (disk : Disk)
    (address : Address)
    : Except Error (Option Nat) := do
  let found ← engine.readPhysical format disk .blob address
    (fun path => .ok disk.files[path]?) "file_store_blob_quota"
  pure (found.map List.length)

def blobTotalBytes (engine : FileStoreEngine) (format : FileFormat Value) (disk : Disk)
    : Except Error Nat :=
  (disk.childDirs [Lane.blob.name]).foldlM
    (fun total ns => do
      let keys ← engine.listKeysUnlocked format disk .blob ns
      keys.toList.foldlM
        (fun total key => do
          let bytes ← engine.blobValueLenUnlocked format disk ⟨ns, key⟩
          pure (total + bytes.getD 0)) total) 0

end FileStoreEngine

/-! ## The event log -/

/-- The bytes between newlines; what follows the last newline is the last piece. -/
def splitLines : Bytes → List Bytes
  | [] => [[]]
  | byte :: rest =>
      if byte = 10 then [] :: splitLines rest
      else
        match splitLines rest with
        | [] => [[byte]]
        | line :: lines => (byte :: line) :: lines

/-- One line of the log joins the events read so far; blank lines are skipped. -/
def pushBoundedEventLine (format : FileFormat Value) (capacity : StoreCapacityBudget)
    (stage : String) (events : List MemoryStoreEvent) (raw : Bytes)
    : Except Error (List MemoryStoreEvent) :=
  if raw.all isAsciiWhitespace then .ok events
  else do
    require (events.length + 1 ≤ capacity.eventLogMaxItems)
      (.config stage "event items exceed the active aggregate budget")
    let event ← atStage stage (format.eventFromSlice raw)
    event.validateCurrentSchema stage
    pure (events ++ [event])

/-- The events of the log, within a limit on its bytes and on its items. The reader of the
source checks the bytes once more while it reads; the length of the file bounds what it
reads, so that check cannot fail after this one.
-/
def readEventsJsonlBounded (format : FileFormat Value) (disk : Disk)
    (capacity : StoreCapacityBudget) (maxBytes : Nat) (stage : String)
    : Except Error (List MemoryStoreEvent) :=
  match disk.files[eventsPath]? with
  | none => .ok []
  | some bytes => do
      require (bytes.length ≤ maxBytes)
        (.config stage "runtime metric event bytes exceed the active aggregate budget")
      (splitLines bytes).foldlM (pushBoundedEventLine format capacity stage) []

/-- The whole log under the engine's own limits. -/
def FileStoreEngine.readEventsUnlocked (engine : FileStoreEngine) (format : FileFormat Value)
    (disk : Disk)
    : Except Error (List MemoryStoreEvent) :=
  readEventsJsonlBounded format disk engine.capacity engine.capacity.snapshotMaxBytes
    "store_event_log"

end BeetleMemory.Store
