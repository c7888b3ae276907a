import BeetleMemory.Store.File.Layout

/-! The transaction journal of the file backend: images of the touched part of the store,
the journal that holds one before and one after the commit, and the texts it is kept in.
-/

namespace BeetleMemory.Store

open Std FileSystem

variable {Value : Type}

/-- One document or blob of an image; an address without a value is to be absent. -/
structure FileTransactionValue (α : Type) where
  address : Address
  value : Option α
deriving DecidableEq

inductive FileTransactionEventsImage where
  | append (prefixLen : Nat) (events : List MemoryStoreEvent)
  | replace (events : List MemoryStoreEvent)
deriving DecidableEq

structure FileTransactionImage (Value : Type) where
  json : List (FileTransactionValue Value)
  blobs : List (FileTransactionValue Bytes)
  events : FileTransactionEventsImage
deriving DecidableEq

inductive FileTransactionJournalState where
  | prepared
  | committed
deriving DecidableEq, Repr

structure FileTransactionJournal (Value : Type) where
  schemaVersion : Nat
  transactionId : String
  state : FileTransactionJournalState
  before : FileTransactionImage Value
  after : FileTransactionImage Value
  checksum : String
deriving DecidableEq

structure FileKeyIndex where
  addressingVersion : Nat
  key : String
deriving DecidableEq, Repr

/-- The texts the file backend keeps its records in, as serde_json writes and reads them.
A reader that fails returns the library's message.
-/
structure FileFormat (Value : Type) extends Encoding Value where
  null : Value
  toVecPretty : Value → Bytes
  fromSlice : Bytes → Except String Value
  eventToVec : MemoryStoreEvent → Bytes
  eventFromSlice : Bytes → Except String MemoryStoreEvent
  keyIndexToVecPretty : FileKeyIndex → Bytes
  keyIndexFromSlice : Bytes → Except String FileKeyIndex
  journalToVec : FileTransactionJournal Value → Bytes
  journalFromSlice : Bytes → Except String (FileTransactionJournal Value)
  hasCompleteJournalShape : Bytes → Bool
  /-- The tuple the checksum is taken over: everything but the checksum. -/
  journalBodyToVec : Nat → String → FileTransactionJournalState → FileTransactionImage Value
    → FileTransactionImage Value → Bytes
  keyDigest : KeyDigest

/-- A reader's result with the stage that asked for it. -/
def atStage {α : Type} (stage : String) : Except String α → Except Error α
  | .ok value => .ok value
  | .error message => .error (.config stage message)

@[simp]
theorem atStage_eq_ok {α : Type} {stage : String} {read : Except String α} {value : α}
    : atStage stage read = .ok value ↔ read = .ok value := by
  cases read <;> simp [atStage]

def isAsciiWhitespace (byte : UInt8) : Bool :=
  byte == 9 || byte == 10 || byte == 12 || byte == 13 || byte == 32

def transactionRepairRequiredStage : String :=
  "memory_write_transaction_repair_required"

namespace FileTransactionJournal

def expectedChecksum (format : FileFormat Value) (journal : FileTransactionJournal Value)
    : String :=
  format.sha256
    (format.journalBodyToVec journal.schemaVersion journal.transactionId journal.state
      journal.before journal.after)

def refreshChecksum (format : FileFormat Value) (journal : FileTransactionJournal Value)
    : FileTransactionJournal Value :=
  { journal with checksum := journal.expectedChecksum format }

/-- A prepared journal with its checksum. -/
def new (format : FileFormat Value) (transactionId : String)
    (before after : FileTransactionImage Value)
    : FileTransactionJournal Value :=
  refreshChecksum format
    { schemaVersion := 2
      transactionId := transactionId
      state := .prepared
      before := before
      after := after
      checksum := "" }

/-- The journal once its transaction is applied. -/
def markCommitted (format : FileFormat Value) (journal : FileTransactionJournal Value)
    : FileTransactionJournal Value :=
  refreshChecksum format { journal with state := .committed }

def verifyChecksum (format : FileFormat Value) (journal : FileTransactionJournal Value)
    : Except Error Unit :=
  require (journal.checksum = journal.expectedChecksum format)
    (.config transactionRepairRequiredStage "file transaction journal checksum mismatch")

/-- The addresses of a list of image entries, each of which may occur once; the kind names
the list in the error.
-/
def imageAddresses {α : Type} (entries : List (FileTransactionValue α)) (kind : String)
    : Except Error (ExtTreeSet Address) := do
  let addresses := ExtTreeSet.ofList (entries.map FileTransactionValue.address)
  require (addresses.size = entries.length)
    (.config transactionRepairRequiredStage
      s!"file transaction journal contains duplicate {kind} addresses")
  pure addresses

private def addressClosureMismatch : Error :=
  .config transactionRepairRequiredStage
    "file transaction journal before/after address closure mismatch"

/-- Both images name the same addresses, once each, and describe the log the same way. -/
def validateImageAddressContract (journal : FileTransactionJournal Value)
    : Except Error Unit := do
  require (!trimIsEmpty journal.transactionId) addressClosureMismatch
  let jsonBefore ← imageAddresses journal.before.json "JSON"
  let jsonAfter ← imageAddresses journal.after.json "JSON"
  require (jsonBefore = jsonAfter) addressClosureMismatch
  let blobsBefore ← imageAddresses journal.before.blobs "blob"
  let blobsAfter ← imageAddresses journal.after.blobs "blob"
  require (blobsBefore = blobsAfter) addressClosureMismatch
  match journal.before.events, journal.after.events with
  | .append before _, .append after _ =>
      require (before = after)
        (.config transactionRepairRequiredStage
          "file transaction journal event image contract mismatch")
  | .replace _, .replace _ => pure ()
  | _, _ =>
      .error
        (.config transactionRepairRequiredStage
          "file transaction journal event image contract mismatch")

end FileTransactionJournal

/-! ## What serde_json documents -/

section ReadBack

variable [DecidableEq Value]

/-- An entry as it is read back: the text of an absent value and the text of a present
JSON null are both null, and null is read as absent.
-/
def FileTransactionValue.readBack (null : Value) (entry : FileTransactionValue Value)
    : FileTransactionValue Value :=
  { entry with value := entry.value.filter (· ≠ null) }

def FileTransactionImage.readBack (null : Value) (image : FileTransactionImage Value)
    : FileTransactionImage Value :=
  { image with json := image.json.map (FileTransactionValue.readBack null) }

def FileTransactionJournal.readBack (null : Value) (journal : FileTransactionJournal Value)
    : FileTransactionJournal Value :=
  { journal with
    before := journal.before.readBack null
    after := journal.after.readBack null }

/-- The documented behaviour of serde_json on these records: reading undoes writing, except
that a present null in an optional field is read as absent.
-/
structure FileFormat.Lawful (format : FileFormat Value) : Prop where
  fromSlice_toVecPretty : ∀ value, format.fromSlice (format.toVecPretty value) = .ok value
  eventFromSlice_eventToVec : ∀ event,
    format.eventFromSlice (format.eventToVec event) = .ok event
  eventToVec_one_line : ∀ event, 10 ∉ format.eventToVec event
  eventToVec_not_blank : ∀ event, (format.eventToVec event).all isAsciiWhitespace = false
  keyIndexFromSlice_keyIndexToVecPretty : ∀ index,
    format.keyIndexFromSlice (format.keyIndexToVecPretty index) = .ok index
  journalFromSlice_journalToVec : ∀ journal,
    format.journalFromSlice (format.journalToVec journal) = .ok (journal.readBack format.null)
  journalBodyToVec_readBack : ∀ version id state before after,
    format.journalBodyToVec version id state (before.readBack format.null)
      (after.readBack format.null)
    = format.journalBodyToVec version id state before after

end ReadBack

/-- The image of a state on the addresses of a read set. -/
def transactionImage (json : ExtTreeMap Address Value) (blobs : ExtTreeMap Address Bytes)
    (readSet : StoreTransactionReadSet) (events : FileTransactionEventsImage)
    : FileTransactionImage Value where
  json := readSet.json.toList.map fun address => ⟨address, json[address]?⟩
  blobs := readSet.blobs.toList.map fun address => ⟨address, blobs[address]?⟩
  events := events

end BeetleMemory.Store
