import BeetleMemory.Lib.JsonText
import BeetleMemory.Lib.OrderedMap
import BeetleMemory.Store.File.Journal

/-! The texts of the file backend's records: how serde_json writes each of them, field by
field, and a reader for those texts. Documents are JSON values with natural numbers.
-/

namespace BeetleMemory.Store

open Std JsonText

namespace Serde

def text : Json → Option String
  | .string value => some value
  | _ => none

def number : Json → Option Nat
  | .number value => some value
  | _ => none

def items {α : Type} (read : Json → Option α) : Json → Option (List α)
  | .array values => values.mapM read
  | _ => none

def field {α : Type} (name : String) (read : Json → Option α) : Json → Option α
  | .object members => (members.lookup name).bind read
  | _ => none

@[simp]
theorem field_cons {α : Type} {name key : String} {read : Json → Option α} {value : Json}
    {rest : List (String × Json)}
    : field name read (.object ((key, value) :: rest))
      = if key = name then read value else field name read (.object rest) := by
  by_cases h : key = name
  · simp [field, List.lookup, h]
  · have h' : (name == key) = false := by simpa using Ne.symm h
    simp [field, List.lookup, h, h']

@[simp]
theorem field_nil {α : Type} {name : String} {read : Json → Option α}
    : field name read (.object []) = none :=
  rfl

@[simp]
theorem text_string (value : String) : text (.string value) = some value :=
  rfl

@[simp]
theorem number_number (value : Nat) : number (.number value) = some value :=
  rfl

theorem items_map {α : Type} {read : Json → Option α} {write : α → Json}
    (h : ∀ a, read (write a) = some a) (as : List α)
    : items read (.array (as.map write)) = some as := by
  induction as with
  | nil => rfl
  | cons a as ih =>
      rw [items] at ih ⊢
      rw [List.map_cons, List.mapM_cons, h, ih]
      rfl

end Serde

open Serde

/-! ## Events -/

def MemoryStoreEventKind.serdeName : MemoryStoreEventKind → String
  | .memoryWrite => "memory_write"
  | .memoryMerge => "memory_merge"
  | .memoryControl => "memory_control"
  | .memoryDelete => "memory_delete"
  | .memoryPolicy => "memory_policy"
  | .memoryMaintenance => "memory_maintenance"
  | .memoryProjection => "memory_projection"
  | .runtimeLifecycle => "runtime_lifecycle"
  | .operatorAction => "operator_action"

def MemoryStoreEventKind.ofSerdeName (name : String) : Option MemoryStoreEventKind :=
  [.memoryWrite, .memoryMerge, .memoryControl, .memoryDelete, .memoryPolicy,
    .memoryMaintenance, .memoryProjection, .runtimeLifecycle, .operatorAction].find?
    (·.serdeName = name)

theorem MemoryStoreEventKind.ofSerdeName_serdeName (kind : MemoryStoreEventKind)
    : ofSerdeName kind.serdeName = some kind := by
  cases kind <;> decide

def StorePhysicalOwningScope.toJson : StorePhysicalOwningScope → Json
  | .subject mountedSubjectId =>
      .object [("kind", .string "subject"), ("mounted_subject_id", .string mountedSubjectId)]
  | .sharedProgram => .object [("kind", .string "shared_program")]

def StorePhysicalOwningScope.ofJson (json : Json) : Option StorePhysicalOwningScope := do
  match ← field "kind" text json with
  | "subject" => return .subject (← field "mounted_subject_id" text json)
  | "shared_program" => return .sharedProgram
  | _ => none

def StoreEventScope.toJson (scope : StoreEventScope) : Json :=
  .object
    ([("agent_id", .string scope.agentId),
      ("owner_id", .string scope.ownerId),
      ("channel", .string scope.channel),
      ("chat_id", .string scope.chatId),
      ("memory_space_id", .string scope.memorySpaceId),
      ("subject_id", .string scope.subjectId),
      ("physical_owning_scope", scope.physicalOwningScope.toJson)]
    -- The conversation is skipped when there is none.
    ++ (scope.conversationId.map fun id => ("conversation_id", Json.string id)).toList)

def StoreEventScope.ofJson (json : Json) : Option StoreEventScope := do
  return {
    agentId := ← field "agent_id" text json
    ownerId := ← field "owner_id" text json
    channel := ← field "channel" text json
    chatId := ← field "chat_id" text json
    memorySpaceId := ← field "memory_space_id" text json
    subjectId := ← field "subject_id" text json
    physicalOwningScope := ← field "physical_owning_scope" StorePhysicalOwningScope.ofJson json
    conversationId := field "conversation_id" text json
  }

theorem StorePhysicalOwningScope.ofJson_toJson (scope : StorePhysicalOwningScope)
    : ofJson scope.toJson = some scope := by
  cases scope <;> simp [ofJson, toJson]

theorem StoreEventScope.ofJson_toJson (scope : StoreEventScope)
    : ofJson scope.toJson = some scope := by
  obtain ⟨agent, owner, channel, chat, space, subject, physical, conversation⟩ := scope
  cases conversation <;>
    simp [ofJson, toJson, StorePhysicalOwningScope.ofJson_toJson]

/-- A map of texts is an object in key order. -/
def payloadToJson (payload : ExtTreeMap String String) : Json :=
  .object (payload.toList.map fun (key, value) => (key, .string value))

def payloadEntryOfJson (m : String × Json) : Option (String × String) :=
  (text m.2).map fun value => (m.1, value)

def payloadOfJson : Json → Option (ExtTreeMap String String)
  | .object members =>
      (members.mapM payloadEntryOfJson).map fun entries => ExtTreeMap.ofList entries
  | _ => none

theorem payloadOfJson_toJson (payload : ExtTreeMap String String)
    : payloadOfJson (payloadToJson payload) = some payload := by
  have entries : ∀ entries : List (String × String),
      (entries.map fun (key, value) => (key, Json.string value)).mapM payloadEntryOfJson
        = some entries := by
    intro entries
    induction entries with
    | nil => rfl
    | cons entry entries ih =>
        rw [List.map_cons, List.mapM_cons, ih]
        rfl
  rw [payloadToJson, payloadOfJson, entries, Option.map_some, OrderedMap.ofList_toList]

def MemoryStoreEvent.toJson (event : MemoryStoreEvent) : Json :=
  .object
    [("event_id", .string event.eventId),
      ("kind", .string event.kind.serdeName),
      ("kind_name", .string event.kindName),
      ("scope", event.scope.toJson),
      ("plane", .string event.plane),
      ("record_key", .string event.recordKey),
      ("content_hash", .string event.contentHash),
      ("schema_version", .number event.schemaVersion),
      ("timestamp_unix_secs", .number event.timestampUnixSecs),
      ("payload", payloadToJson event.payload)]

def MemoryStoreEvent.ofJson (json : Json) : Option MemoryStoreEvent := do
  return {
    eventId := ← field "event_id" text json
    kind := ← MemoryStoreEventKind.ofSerdeName (← field "kind" text json)
    kindName := ← field "kind_name" text json
    scope := ← field "scope" StoreEventScope.ofJson json
    plane := ← field "plane" text json
    recordKey := ← field "record_key" text json
    contentHash := ← field "content_hash" text json
    schemaVersion := ← field "schema_version" number json
    timestampUnixSecs := ← field "timestamp_unix_secs" number json
    payload := ← field "payload" payloadOfJson json
  }

theorem MemoryStoreEvent.ofJson_toJson (event : MemoryStoreEvent)
    : ofJson event.toJson = some event := by
  simp [ofJson, toJson, MemoryStoreEventKind.ofSerdeName_serdeName,
    StoreEventScope.ofJson_toJson, payloadOfJson_toJson]

/-! ## Journals -/

/-- An absent value and a present null are both written as null. -/
def jsonValueToJson (entry : FileTransactionValue Json) : Json :=
  .object
    [("namespace", .string entry.address.ns), ("key", .string entry.address.key),
      ("value", entry.value.getD .null)]

def jsonValueOfJson (json : Json) : Option (FileTransactionValue Json) := do
  return {
    address := ⟨← field "namespace" text json, ← field "key" text json⟩
    value := (← field "value" some json) |> fun value =>
      if value = .null then none else some value
  }

theorem jsonValueOfJson_toJson (entry : FileTransactionValue Json)
    : jsonValueOfJson (jsonValueToJson entry) = some (entry.readBack .null) := by
  obtain ⟨⟨ns, key⟩, value⟩ := entry
  cases value with
  | none => simp [jsonValueOfJson, jsonValueToJson, FileTransactionValue.readBack]
  | some value =>
      by_cases null : value = .null <;>
        simp [jsonValueOfJson, jsonValueToJson, FileTransactionValue.readBack, null,
          Option.filter]

def blobValueToJson (entry : FileTransactionValue Bytes) : Json :=
  .object
    [("namespace", .string entry.address.ns), ("key", .string entry.address.key),
      ("value",
        match entry.value with
        | none => .null
        | some bytes => .array (bytes.map fun byte => .number byte.toNat))]

def byteOfJson (json : Json) : Option UInt8 := do
  let value ← number json
  if value < 256 then return UInt8.ofNat value else none

def blobBytesOfJson : Json → Option (Option Bytes)
  | .null => some none
  | json => (items byteOfJson json).map some

def blobValueOfJson (json : Json) : Option (FileTransactionValue Bytes) := do
  return {
    address := ⟨← field "namespace" text json, ← field "key" text json⟩
    value := ← field "value" blobBytesOfJson json
  }

theorem blobValueOfJson_toJson (entry : FileTransactionValue Bytes)
    : blobValueOfJson (blobValueToJson entry) = some entry := by
  have byte : ∀ b : UInt8, byteOfJson (.number b.toNat) = some b := by
    intro b
    simp [byteOfJson, b.toNat_lt]
  obtain ⟨⟨ns, key⟩, value⟩ := entry
  cases value with
  | none => simp [blobValueOfJson, blobValueToJson, blobBytesOfJson]
  | some bytes =>
      simp [blobValueOfJson, blobValueToJson, blobBytesOfJson, items_map byte]

def FileTransactionEventsImage.toJson : FileTransactionEventsImage → Json
  | .append prefixLen events =>
      .object
        [("kind", .string "append"), ("prefix_len", .number prefixLen),
          ("events", .array (events.map MemoryStoreEvent.toJson))]
  | .replace events =>
      .object
        [("kind", .string "replace"), ("events", .array (events.map MemoryStoreEvent.toJson))]

def FileTransactionEventsImage.ofJson (json : Json) : Option FileTransactionEventsImage := do
  let events ← field "events" (items MemoryStoreEvent.ofJson) json
  match ← field "kind" text json with
  | "append" => return .append (← field "prefix_len" number json) events
  | "replace" => return .replace events
  | _ => none

theorem FileTransactionEventsImage.ofJson_toJson (image : FileTransactionEventsImage)
    : ofJson image.toJson = some image := by
  cases image <;> simp [ofJson, toJson, items_map MemoryStoreEvent.ofJson_toJson]

def imageToJson (image : FileTransactionImage Json) : Json :=
  .object
    [("json", .array (image.json.map jsonValueToJson)),
      ("blobs", .array (image.blobs.map blobValueToJson)),
      ("events", image.events.toJson)]

def imageOfJson (json : Json) : Option (FileTransactionImage Json) := do
  return {
    json := ← field "json" (items jsonValueOfJson) json
    blobs := ← field "blobs" (items blobValueOfJson) json
    events := ← field "events" FileTransactionEventsImage.ofJson json
  }

/-- The text of an entry is that of the entry it is read back as. -/
theorem jsonValueToJson_readBack (entry : FileTransactionValue Json)
    : jsonValueToJson (entry.readBack .null) = jsonValueToJson entry := by
  obtain ⟨address, value⟩ := entry
  cases value with
  | none => rfl
  | some value =>
      by_cases null : value = .null <;>
        simp [jsonValueToJson, FileTransactionValue.readBack, null, Option.filter]

theorem imageToJson_readBack (image : FileTransactionImage Json)
    : imageToJson (image.readBack .null) = imageToJson image := by
  simp [imageToJson, FileTransactionImage.readBack, Function.comp_def,
    jsonValueToJson_readBack]

theorem imageOfJson_toJson (image : FileTransactionImage Json)
    : imageOfJson (imageToJson image) = some (image.readBack .null) := by
  have entry : ∀ entry : FileTransactionValue Json,
      (jsonValueOfJson ∘ jsonValueToJson) entry = some (entry.readBack .null) :=
    jsonValueOfJson_toJson
  have json : items jsonValueOfJson (.array (image.json.map jsonValueToJson))
      = some (image.json.map (FileTransactionValue.readBack .null)) := by
    rw [items, List.mapM_map]
    induction image.json with
    | nil => rfl
    | cons head tail ih => rw [List.mapM_cons, ih, entry]; rfl
  simp [imageOfJson, imageToJson, json, items_map blobValueOfJson_toJson,
    FileTransactionEventsImage.ofJson_toJson, FileTransactionImage.readBack]

def FileTransactionJournalState.serdeName : FileTransactionJournalState → String
  | .prepared => "prepared"
  | .committed => "committed"

def FileTransactionJournalState.ofSerdeName : String → Option FileTransactionJournalState
  | "prepared" => some .prepared
  | "committed" => some .committed
  | _ => none

theorem FileTransactionJournalState.ofSerdeName_serdeName
    (state : FileTransactionJournalState)
    : ofSerdeName state.serdeName = some state := by
  cases state <;> rfl

def journalToJson (journal : FileTransactionJournal Json) : Json :=
  .object
    [("schema_version", .number journal.schemaVersion),
      ("transaction_id", .string journal.transactionId),
      ("state", .string journal.state.serdeName),
      ("before", imageToJson journal.before),
      ("after", imageToJson journal.after),
      ("checksum", .string journal.checksum)]

def journalOfJson (json : Json) : Option (FileTransactionJournal Json) := do
  return {
    schemaVersion := ← field "schema_version" number json
    transactionId := ← field "transaction_id" text json
    state := ← FileTransactionJournalState.ofSerdeName (← field "state" text json)
    before := ← field "before" imageOfJson json
    after := ← field "after" imageOfJson json
    checksum := ← field "checksum" text json
  }

theorem journalOfJson_toJson (journal : FileTransactionJournal Json)
    : journalOfJson (journalToJson journal) = some (journal.readBack .null) := by
  simp [journalOfJson, journalToJson, FileTransactionJournalState.ofSerdeName_serdeName,
    imageOfJson_toJson, FileTransactionJournal.readBack]

/-- All fields of a journal are there, whatever they hold. -/
def hasCompleteJournalShape (json : Json) : Bool :=
  ["schema_version", "transaction_id", "state", "before", "after", "checksum"].all
    fun name => (field name some json).isSome

/-! ## The format -/

def FileKeyIndex.toJson (index : FileKeyIndex) : Json :=
  .object [("addressing_version", .number index.addressingVersion),
    ("key", .string index.key)]

def FileKeyIndex.ofJson (json : Json) : Option FileKeyIndex := do
  return {
    addressingVersion := ← field "addressing_version" number json
    key := ← field "key" text json
  }

def orMessage {α : Type} : Option α → Except String α
  | some value => .ok value
  | none => .error "invalid JSON"

/-- The texts of the file backend over given hash functions. -/
def jsonFormat (sha256 contentHash : Bytes → String) (keyDigest : KeyDigest)
    : FileFormat Json where
  toVec := toBytes .compact
  contentHash := contentHash
  sha256 := sha256
  null := .null
  toVecPretty := toBytes .pretty
  fromSlice bytes := orMessage (fromBytes bytes)
  eventToVec event := toBytes .compact event.toJson
  eventFromSlice bytes := orMessage ((fromBytes bytes).bind MemoryStoreEvent.ofJson)
  keyIndexToVecPretty index := toBytes .pretty index.toJson
  keyIndexFromSlice bytes := orMessage ((fromBytes bytes).bind FileKeyIndex.ofJson)
  journalToVec journal := toBytes .compact (journalToJson journal)
  journalFromSlice bytes := orMessage ((fromBytes bytes).bind journalOfJson)
  hasCompleteJournalShape bytes := ((fromBytes bytes).map hasCompleteJournalShape).getD false
  journalBodyToVec version id state before after :=
    toBytes .compact
      (.array [.number version, .string id, .string state.serdeName, imageToJson before,
        imageToJson after])
  keyDigest := keyDigest

theorem jsonFormat_lawful (sha256 contentHash : Bytes → String) (keyDigest : KeyDigest)
    : (jsonFormat sha256 contentHash keyDigest).Lawful where
  fromSlice_toVecPretty value := by
    simp [jsonFormat, fromBytes_toBytes, orMessage]
  eventFromSlice_eventToVec event := by
    simp [jsonFormat, fromBytes_toBytes, orMessage, MemoryStoreEvent.ofJson_toJson]
  eventToVec_one_line event := newline_notMem_toBytes event.toJson
  eventToVec_not_blank event := by
    -- The text begins with a brace.
    obtain ⟨rest, text⟩ : ∃ rest, write .compact 0 event.toJson = '{' :: rest := ⟨_, rfl⟩
    have brace : String.utf8EncodeChar '{' = [123] := by decide
    simp [jsonFormat, toBytes, text, brace, isAsciiWhitespace]
  keyIndexFromSlice_keyIndexToVecPretty index := by
    simp [jsonFormat, fromBytes_toBytes, orMessage, FileKeyIndex.ofJson, FileKeyIndex.toJson]
  journalFromSlice_journalToVec journal := by
    simp [jsonFormat, fromBytes_toBytes, orMessage, journalOfJson_toJson]
  journalBodyToVec_readBack version id state before after := by
    simp [jsonFormat, imageToJson_readBack]

end BeetleMemory.Store
