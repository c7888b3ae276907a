import BeetleMemory.Store.File.Loading
import BeetleMemory.Store.File.Restore

/-! The journal an accepted commit writes: its before image is what the disk holds at the
read set, its after image is the plan's result there, and a reader that gets the whole text
accepts it.
-/

namespace BeetleMemory.Store

open Std FileSystem

variable {Value : Type}

/-- Entries made from the addresses of a set name each address of the set once. -/
theorem imageAddresses_of_set {α : Type} {entries : List (FileTransactionValue α)}
    {addresses : ExtTreeSet Address} (kind : String)
    (h : entries.map FileTransactionValue.address = addresses.toList)
    : FileTransactionJournal.imageAddresses entries kind = .ok addresses := by
  have same : ExtTreeSet.ofList addresses.toList = addresses := by
    ext a
    simp [ExtTreeSet.mem_ofList]
  have size : addresses.size = entries.length := by
    rw [← ExtTreeSet.length_toList, ← h, List.length_map]
  simp [FileTransactionJournal.imageAddresses, h, same, size, require, Fallible.ok_bind, pure,
    Except.pure]

namespace FileStoreEngine

variable {engine : FileStoreEngine} {format : FileFormat Value} {disk : Disk}

/-! ## A journal that can be read -/

/-- The shape of the journals a commit writes: both images cover one read set, the log is
described by one old length, and the checksum is the one of the contents.
-/
structure Journaled (format : FileFormat Value) (readSet : StoreTransactionReadSet)
    (prefixLen : Nat) (events : List MemoryStoreEvent)
    (journal : FileTransactionJournal Value)
    : Prop where
  schemaVersion : journal.schemaVersion = 2
  named : trimIsEmpty journal.transactionId = false
  checksum : journal.checksum = journal.expectedChecksum format
  beforeJson : journal.before.json.map FileTransactionValue.address = readSet.json.toList
  afterJson : journal.after.json.map FileTransactionValue.address = readSet.json.toList
  beforeBlobs : journal.before.blobs.map FileTransactionValue.address = readSet.blobs.toList
  afterBlobs : journal.after.blobs.map FileTransactionValue.address = readSet.blobs.toList
  beforeEvents : journal.before.events = .append prefixLen []
  afterEvents : journal.after.events = .append prefixLen events

variable {readSet : StoreTransactionReadSet} {prefixLen : Nat}
  {events : List MemoryStoreEvent} {journal : FileTransactionJournal Value}

theorem Journaled.markCommitted (h : Journaled format readSet prefixLen events journal)
    : Journaled format readSet prefixLen events (journal.markCommitted format) :=
  { h with checksum := rfl }

theorem Journaled.readBack [DecidableEq Value] (lawful : format.Lawful)
    (h : Journaled format readSet prefixLen events journal)
    : Journaled format readSet prefixLen events (journal.readBack format.null) where
  schemaVersion := h.schemaVersion
  named := h.named
  checksum := by
    rw [FileTransactionJournal.expectedChecksum, FileTransactionJournal.readBack,
      lawful.journalBodyToVec_readBack]
    exact h.checksum
  beforeJson := by
    rw [← h.beforeJson]
    simp [FileTransactionJournal.readBack, FileTransactionImage.readBack,
      FileTransactionValue.readBack, Function.comp_def]
  afterJson := by
    rw [← h.afterJson]
    simp [FileTransactionJournal.readBack, FileTransactionImage.readBack,
      FileTransactionValue.readBack, Function.comp_def]
  beforeBlobs := h.beforeBlobs
  afterBlobs := h.afterBlobs
  beforeEvents := h.beforeEvents
  afterEvents := h.afterEvents

theorem Journaled.validateImageAddressContract
    (h : Journaled format readSet prefixLen events journal)
    : journal.validateImageAddressContract = .ok () := by
  simp only [FileTransactionJournal.validateImageAddressContract, h.named,
    imageAddresses_of_set _ h.beforeJson, imageAddresses_of_set _ h.afterJson,
    imageAddresses_of_set _ h.beforeBlobs, imageAddresses_of_set _ h.afterBlobs,
    h.beforeEvents, h.afterEvents]
  simp [require, Fallible.ok_bind]

/-- A journal of that shape is accepted back, as serde_json reads it, if its text is within
the limit.
-/
theorem Journaled.read [DecidableEq Value] (lawful : format.Lawful)
    (h : Journaled format readSet prefixLen events journal)
    (written : disk.files[transactionMarkerPath]? = some (format.journalToVec journal))
    (fits : (format.journalToVec journal).length ≤ engine.journalMaxBytes)
    : engine.readTransactionJournalReadOnly format disk
      = .ok (some (journal.readBack format.null)) := by
  have back := h.readBack lawful
  have checksum : (journal.readBack format.null).verifyChecksum format = .ok () := by
    simp [FileTransactionJournal.verifyChecksum, require, ← back.checksum]
  rw [readTransactionJournalReadOnly, readFileBounded_of_le written fits, Fallible.ok_bind]
  simp [lawful.journalFromSlice_journalToVec, back.schemaVersion, checksum,
    back.validateImageAddressContract, require, Fallible.ok_bind, pure, Except.pure]

/-- A journal longer than the limit stops every recovery. -/
theorem readTransactionJournalReadOnly_of_long {bytes : Bytes}
    (written : disk.files[transactionMarkerPath]? = some bytes)
    (long : engine.journalMaxBytes < bytes.length)
    : ∃ error, engine.readTransactionJournalReadOnly format disk = .error error := by
  cases read : engine.readTransactionJournalReadOnly format disk with
  | error error => exact ⟨error, rfl⟩
  | ok journal =>
      obtain ⟨found, bounded, -⟩ := Fallible.bind_eq_ok.mp read
      obtain ⟨same, within⟩ := readFileBounded_eq_ok bounded
      have := within bytes (same.trans written)
      omega

theorem readTransactionJournalReadOnly_of_missing
    (missing : disk.files[transactionMarkerPath]? = none)
    : engine.readTransactionJournalReadOnly format disk = .ok none := by
  rw [readTransactionJournalReadOnly, readFileBounded_of_missing missing, Fallible.ok_bind]
  rfl

/-! ## An accepted plan -/

section Accepted

variable [DecidableEq Value] {docs : ExtTreeMap Address Value}
  {blobs : ExtTreeMap Address Bytes} {rules : OwnerRules Value}
  {request : StoreTransactionRequest Value} {admission : StoreTransactionAdmission}
  {nowSecs : Nat} {planned : PlannedCommit Value}

/-- An accepted plan was made by the planner from what the disk holds, and its journal
records the touched part before and after.
-/
theorem planTransaction_ok (keeps : engine.KeepsState format disk docs blobs)
    (lawful : format.Lawful)
    (ok : engine.planTransaction format rules request admission nowSecs disk = .ok planned)
    : ∃ context plan final,
        engine.LoadedFrom format disk docs blobs request context
          (disk.content eventsPath).length
        ∧ Planned format.toEncoding admission request context final plan
        ∧ planned.journal = .new format request.transactionId
          (transactionImage context.touched.json context.touched.blobs request.readSet
            (.append (disk.content eventsPath).length []))
          (transactionImage plan.nextTouched.json plan.nextTouched.blobs request.readSet
            (.append (disk.content eventsPath).length
              (appendedEvents plan.effectiveMutations)))
        ∧ planned.report = plan.report := by
  simp only [planTransaction, Fallible.bind_eq_ok, Fallible.pure_eq_ok] at ok
  obtain ⟨_, _, ⟨context, prefixLen⟩, load, plan, accepted, rfl⟩ := ok
  have loaded := loadTransactionContext_ok keeps lawful load
  obtain rfl := loaded.prefixLen
  obtain ⟨final, facts⟩ := applyTransaction_ok accepted
  exact ⟨context, plan, final, loaded, facts, rfl, rfl⟩

/-- What an accepted commit is about to write, against what the disk holds. -/
structure Commits (engine : FileStoreEngine) (format : FileFormat Value) (disk : Disk)
    (docs : ExtTreeMap Address Value) (blobs : ExtTreeMap Address Bytes)
    (readSet : StoreTransactionReadSet) (events : List MemoryStoreEvent)
    (journal : FileTransactionJournal Value)
    : Prop where
  journaled : Journaled format readSet (disk.content eventsPath).length events journal
  prepared : journal.state = .prepared
  jsonBefore : ∀ entry ∈ journal.before.json, entry.value = docs[entry.address]?
  blobsBefore : ∀ entry ∈ journal.before.blobs, entry.value = blobs[entry.address]?
  jsonRead : ∀ a ∈ readSet.json,
    engine.ReadOk format disk .json (holdings format docs blobs .json a) a
  blobsRead : ∀ a ∈ readSet.blobs,
    engine.ReadOk format disk .blob (holdings format docs blobs .blob a) a

theorem planTransaction_commits (keeps : engine.KeepsState format disk docs blobs)
    (lawful : format.Lawful)
    (ok : engine.planTransaction format rules request admission nowSecs disk = .ok planned)
    : ∃ events,
        engine.Commits format disk docs blobs request.readSet events planned.journal := by
  obtain ⟨context, plan, final, loaded, facts, journal, -⟩ :=
    planTransaction_ok keeps lawful ok
  refine ⟨appendedEvents plan.effectiveMutations, ?_⟩
  rw [journal]
  refine ⟨?_, rfl, ?_, ?_, loaded.jsonRead, loaded.blobsRead⟩
  · constructor
    case named => exact facts.named
    all_goals
      simp [FileTransactionJournal.new, FileTransactionJournal.refreshChecksum,
        FileTransactionJournal.expectedChecksum, transactionImage, Function.comp_def]
  · intro entry member
    obtain ⟨a, inSet, rfl⟩ := List.mem_map.mp member
    exact loaded.jsonShown.covers a (ExtTreeSet.mem_toList.mp inSet)
  · intro entry member
    obtain ⟨a, inSet, rfl⟩ := List.mem_map.mp member
    exact loaded.blobsShown.covers a (ExtTreeSet.mem_toList.mp inSet)

omit [DecidableEq Value] in
private theorem mem_of_address {α : Type} {entries : List (FileTransactionValue α)}
    {addresses : ExtTreeSet Address}
    (h : entries.map FileTransactionValue.address = addresses.toList)
    {entry : FileTransactionValue α} (member : entry ∈ entries)
    : entry.address ∈ addresses := by
  rw [← ExtTreeSet.mem_toList, ← h]
  exact List.mem_map_of_mem member

variable {journal : FileTransactionJournal Value}

omit [DecidableEq Value] in
/-- Every image over the read set has paths within the budget. -/
theorem Commits.addressed
    (commits : engine.Commits format disk docs blobs readSet events journal)
    {image : FileTransactionImage Value}
    (json : image.json.map FileTransactionValue.address = readSet.json.toList)
    (imageBlobs : image.blobs.map FileTransactionValue.address = readSet.blobs.toList)
    : engine.Addressed format image where
  json _ member := (commits.jsonRead _ (mem_of_address json member)).paths
  blobs _ member := (commits.blobsRead _ (mem_of_address imageBlobs member)).paths

omit [DecidableEq Value] in
/-- An entry made from what the disk holds assigns to every file but the scratch files the
bytes that are there.
-/
theorem Keeps.entryWrites_true {held : Holdings} (keeps : engine.Keeps format disk held)
    {α : Type} {lane : Lane} {toBytes : α → Bytes} {entry : FileTransactionValue α}
    (readOk : engine.ReadOk format disk lane (held lane entry.address) entry.address)
    (value : entry.value.map toBytes = held lane entry.address)
    {write : FilePath × Option Bytes}
    (member : write ∈ entryWrites format toBytes
      (engine.layout format.keyDigest lane entry.address) entry)
    (visible : write.1.extension ≠ "tmp")
    : disk.files[write.1]? = write.2 := by
  unfold entryWrites at member
  cases present : entry.value with
  | some v =>
      have holds : held lane entry.address = some (toBytes v) := by
        rw [← value, present, Option.map_some]
      simp only [present, List.mem_cons, List.not_mem_nil, or_false] at member
      rcases member with rfl | rfl | rfl | rfl
      · exact absurd rfl visible
      · exact keeps.index holds
      · exact absurd rfl visible
      · exact keeps.data holds
  | none =>
      have absent : held lane entry.address = none := by
        rw [← value, present, Option.map_none]
      simp only [present, List.mem_cons, List.not_mem_nil, or_false] at member
      rcases member with rfl | rfl | rfl
      · exact readOk.free absent
      · exact keeps.index_eq_none (readOk.free absent)
      · exact keeps.noLegacy _ rfl

omit [DecidableEq Value] in
/-- The before image assigns what is there already. -/
theorem Commits.before_true (keeps : engine.KeepsState format disk docs blobs)
    (commits : engine.Commits format disk docs blobs readSet events journal)
    {write : FilePath × Option Bytes}
    (member : write ∈ engine.imageWrites format journal.before)
    (visible : write.1.extension ≠ "tmp")
    : disk.files[write.1]? = write.2 := by
  rcases List.mem_append.mp member with member | member
  · obtain ⟨entry, inImage, member⟩ := List.mem_flatMap.mp member
    refine keeps.entryWrites_true ?_ ?_ member visible
    · exact commits.jsonRead _ (mem_of_address commits.journaled.beforeJson inImage)
    · rw [commits.jsonBefore entry inImage, holdings]
  · obtain ⟨entry, inImage, member⟩ := List.mem_flatMap.mp member
    refine keeps.entryWrites_true ?_ ?_ member visible
    · exact commits.blobsRead _ (mem_of_address commits.journaled.beforeBlobs inImage)
    · rw [commits.blobsBefore entry inImage, holdings, Option.map_id, id]

end Accepted

end FileStoreEngine

end BeetleMemory.Store
