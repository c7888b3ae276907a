import BeetleMemory.Store.InMemory

/-! Scoped-projection and snapshot replacement on the in-memory backend.
Which documents a scope owns, which owners are protected and what a source closure must
satisfy are the governed owners' rules; the replacement itself is modelled in full.
-/

namespace BeetleMemory.Store

open Std

variable {Value : Type}

structure StoreSnapshotJsonDoc (Value : Type) where
  address : Address
  value : Value

structure StoreSnapshotBlob where
  address : Address
  value : Bytes

structure StoreScopedProjectionScope where
  memorySpaceId : String
  physicalOwningScope : StorePhysicalOwningScope
deriving DecidableEq, Repr

def StoreScopedProjectionScope.mountedSubjectId (scope : StoreScopedProjectionScope)
    : Option String :=
  match scope.physicalOwningScope with
  | .subject mountedSubjectId => some mountedSubjectId
  | .sharedProgram => none

/-- The part of a planned source closure that the replacement itself writes or compares. -/
structure ScopedSourceClosure (Value : Type) where
  preconditions : List (StoreJsonPrecondition Value)
  derivedDocuments : List (StoreSnapshotJsonDoc Value)
  derivedEvents : List MemoryStoreEvent

structure StoreScopedProjectionReplaceRequest (Value : Type) where
  scope : StoreScopedProjectionScope
  jsonNamespaces : List String
  jsonDocs : List (StoreSnapshotJsonDoc Value)
  events : List MemoryStoreEvent
  preserveProtectedOwnerState : Bool
  sourceClosure : Option (ScopedSourceClosure Value)

structure PreparedSourceClosure (Value : Type) where
  documents : List (StoreSnapshotJsonDoc Value)
  before : ExtTreeMap Address (Option Value)
  events : List MemoryStoreEvent

def PreparedSourceClosure.addedEntries (closure : PreparedSourceClosure Value) : Nat :=
  closure.before.values.countP (·.isNone)

structure StoreScopedProjectionReplaceReport where
  admissionReportId : String
  deletedJson : Nat
  insertedJson : Nat
  deletedEvents : Nat
  insertedEvents : Nat
deriving DecidableEq, Repr

/-- The governed owners' side of a projection replacement. -/
structure ProjectionRules (Value : Type) where
  actualProjection : StoreScopedProjectionReplaceRequest Value → StoreCapacityBudget
    → ExtTreeMap Address Value → List MemoryStoreEvent
    → Except Error (List (StoreSnapshotJsonDoc Value))
  checkClosureIdentity : StoreScopedProjectionReplaceRequest Value → ScopedSourceClosure Value
    → List (StoreSnapshotJsonDoc Value) → Except Error Unit
  validateClosure : StoreScopedProjectionReplaceRequest Value → ScopedSourceClosure Value
    → StoreCapacityBudget → ExtTreeMap Address Value → Except Error Unit
  scopedAddresses : List String → ExtTreeMap Address Value → StoreScopedProjectionScope
    → StoreCapacityBudget → Except Error (ExtTreeSet Address)
  documentIsPreserved : StoreScopedProjectionReplaceRequest Value → String → Value
    → Except Error Bool
  eventIsProtectedOwner : MemoryStoreEvent → Bool
  validateDocuments : StoreScopedProjectionReplaceRequest Value → StoreCapacityBudget
    → Except Error Unit
  eventLen : MemoryStoreEvent → Nat
  requestLen : StoreScopedProjectionReplaceRequest Value → Nat

/-! ## Scoped projections -/

private def projectionError (message : String) : Error :=
  .config "store_scoped_projection" message

private def closureConflict : Error :=
  .conflict "store_scoped_source_closure" "scoped replacement pre-image changed during planning"

def eventMatchesScopedProjection (event : MemoryStoreEvent)
    (scope : StoreScopedProjectionScope)
    : Bool :=
  event.scope.memorySpaceId == scope.memorySpaceId
    && event.scope.physicalOwningScope == scope.physicalOwningScope
    && scope.mountedSubjectId.all (event.scope.subjectId == ·)

def eventIsReplacedByScopedProjection (rules : ProjectionRules Value)
    (request : StoreScopedProjectionReplaceRequest Value) (event : MemoryStoreEvent)
    : Bool :=
  eventMatchesScopedProjection event request.scope
    && !(request.preserveProtectedOwnerState && rules.eventIsProtectedOwner event)

/-- The namespaces of governed sources, whose replacement needs a planned closure. -/
def isGovernedSourceNamespace (ns : String) : Bool :=
  ns == "long_term_head_manifests" || ns == "governed_evidence_documents"
    || ns == "conversation_transcript"

/-- One condition of a closure against the stored documents; the state holds the addresses
seen and the documents observed.
-/
def observeClosureCondition [DecidableEq Value] (json : ExtTreeMap Address Value)
    (state : ExtTreeSet Address × ExtTreeMap Address Value)
    (condition : StoreJsonPrecondition Value)
    : Except Error (ExtTreeSet Address × ExtTreeMap Address Value) := do
  let address := condition.address
  require (!state.1.contains address) closureConflict
  require (json[address]? = condition.expected) closureConflict
  match json[address]? with
  | none => pure (state.1.insert address, state.2)
  | some value => pure (state.1.insert address, state.2.insert address value)

/-- The closure's own checks; its derived documents and events are returned as they are. -/
def prepareSourceClosure [DecidableEq Value] (rules : ProjectionRules Value)
    (request : StoreScopedProjectionReplaceRequest Value)
    (actual : List (StoreSnapshotJsonDoc Value)) (capacity : StoreCapacityBudget)
    (json : ExtTreeMap Address Value)
    : Except Error (PreparedSourceClosure Value) :=
  match request.sourceClosure with
  | none => do
      require (!(actual ++ request.jsonDocs).any (isGovernedSourceNamespace ·.address.ns))
        (.config "store_scoped_source_closure"
          "governed source replacement requires its Store-planned closure")
      pure { documents := [], before := ∅, events := [] }
  | some closure => do
      rules.checkClosureIdentity request closure actual
      require (closure.preconditions.length ≤ capacity.kvMaxEntries)
        (storeBudgetError "scoped source read-set exceeds entry budget")
      let observed ← closure.preconditions.foldlM (observeClosureCondition json) (∅, ∅)
      rules.validateClosure request closure capacity observed.2
      pure
        { documents := closure.derivedDocuments
          before := closure.derivedDocuments.foldl
            (fun before doc => before.insert doc.address observed.2[doc.address]?) ∅
          events := closure.derivedEvents }

/-- What the payload check carries: the addresses seen and the serialized bytes so far. -/
structure ProjectionPayload where
  addresses : ExtTreeSet Address
  bytes : Nat

/-- The serialized length of one part of the payload, within what is left of the budget. -/
def chargeProjectionBytes (capacity : StoreCapacityBudget) (bytes length : Nat)
    : Except Error Nat := do
  let remaining := capacity.snapshotMaxBytes - bytes
  require (length ≤ remaining)
    (storeBudgetError s!"scoped projection JSON and event bytes exceed {remaining}")
  pure (bytes + length)

def checkProjectionDocument (encoding : Encoding Value) (capacity : StoreCapacityBudget)
    (namespaces : List String) (owned : ExtTreeSet Address) (payload : ProjectionPayload)
    (doc : StoreSnapshotJsonDoc Value)
    : Except Error ProjectionPayload := do
  enforceLogicalKeyBudget capacity doc.address "store_scoped_projection"
  require
    (namespaces.contains doc.address.ns && !payload.addresses.contains doc.address
      && owned.contains doc.address)
    (projectionError "replacement JSON is outside the exact projection scope or duplicated")
  let bytes ← chargeProjectionBytes capacity payload.bytes (encoding.toVec doc.value).length
  pure { addresses := payload.addresses.insert doc.address, bytes }

def checkDerivedDocument (encoding : Encoding Value) (capacity : StoreCapacityBudget)
    (payload : ProjectionPayload) (doc : StoreSnapshotJsonDoc Value)
    : Except Error ProjectionPayload := do
  enforceLogicalKeyBudget capacity doc.address "store_scoped_projection"
  require (!payload.addresses.contains doc.address)
    (projectionError "source closure overlaps replacement JSON")
  let bytes ← chargeProjectionBytes capacity payload.bytes (encoding.toVec doc.value).length
  pure { addresses := payload.addresses.insert doc.address, bytes }

/-- One event of the payload; only the requested ones must lie in the scope. -/
def checkProjectionEvent (rules : ProjectionRules Value) (capacity : StoreCapacityBudget)
    (scope : Option StoreScopedProjectionScope) (state : ExtTreeSet String × Nat)
    (event : MemoryStoreEvent)
    : Except Error (ExtTreeSet String × Nat) := do
  enforceEventKeyBudget capacity event "store_scoped_projection"
  require (!state.1.contains event.eventId)
    (projectionError "replacement payload contains duplicate event ids")
  require (scope.all (eventMatchesScopedProjection event))
    (projectionError "replacement payload contains an event outside the exact scope")
  let bytes ← chargeProjectionBytes capacity state.2 (rules.eventLen event)
  pure (state.1.insert event.eventId, bytes)

def checkProjectionNamespace (capacity : StoreCapacityBudget) (seen : List String)
    (ns : String)
    : Except Error (List String) := do
  enforceLogicalKeyBudget capacity ⟨ns, ""⟩ "store_scoped_projection"
  require (!seen.contains ns)
    (projectionError "replacement JSON namespaces contain duplicates")
  pure (ns :: seen)

/-- The events that the planned closure adds to the requested ones. -/
def derivedEvents (request : StoreScopedProjectionReplaceRequest Value)
    : List MemoryStoreEvent :=
  match request.sourceClosure with
  | none => []
  | some closure => closure.derivedEvents

def validateScopedProjectionPostImage (encoding : Encoding Value)
    (rules : ProjectionRules Value) (admission : StoreTransactionAdmission)
    (request : StoreScopedProjectionReplaceRequest Value) (final : StoreBackendUsage)
    : Except Error StoreBackendUsage := do
  let capacity := admission.operationCapacity
  require
    (request.jsonDocs.length ≤ capacity.kvMaxEntries
      && request.events.length ≤ capacity.eventLogMaxItems)
    (storeBudgetError "scoped projection replacement exceeds entry capacity")
  let namespaces ← request.jsonNamespaces.foldlM (checkProjectionNamespace capacity) []
  let projectionJson := request.jsonDocs.foldl
    (fun json doc => json.insert doc.address doc.value) ∅
  let owned ←
    rules.scopedAddresses request.jsonNamespaces projectionJson request.scope capacity
  rules.validateDocuments request capacity
  let payload ← request.jsonDocs.foldlM
    (checkProjectionDocument encoding capacity namespaces owned) ⟨∅, 0⟩
  let payload ← (request.sourceClosure.elim [] (·.derivedDocuments)).foldlM
    (checkDerivedDocument encoding capacity) payload
  let counted ← request.events.foldlM
    (checkProjectionEvent rules capacity (some request.scope)) (∅, payload.bytes)
  let counted ← (derivedEvents request).foldlM
    (checkProjectionEvent rules capacity none) counted
  require (counted.2 ≤ capacity.snapshotMaxBytes)
    (storeBudgetError
      s!"scoped projection JSON and event bytes {counted.2} exceed {capacity.snapshotMaxBytes}")
  require (rules.requestLen request ≤ capacity.importMaxBytes)
    (storeBudgetError s!"scoped projection import bytes exceed {capacity.importMaxBytes}")
  require (final.kvEntries ≤ capacity.kvMaxEntries)
    (storeBudgetError
      s!"scoped projection post-image kv entries {final.kvEntries} exceed {capacity.kvMaxEntries}")
  require (final.blobBytes ≤ capacity.blobMaxBytes)
    (storeBudgetError
      s!"scoped projection post-image blob bytes {final.blobBytes} exceed {capacity.blobMaxBytes}")
  require (final.eventCount ≤ capacity.eventLogMaxItems)
    (storeBudgetError
      s!"scoped projection post-image event count {final.eventCount} exceeds {capacity.eventLogMaxItems}")
  pure final

/-- The scope's addresses without the documents that the replacement preserves. -/
def deletedProjectionJson (rules : ProjectionRules Value)
    (request : StoreScopedProjectionReplaceRequest Value) (json : ExtTreeMap Address Value)
    (addresses : ExtTreeSet Address)
    : Except Error (ExtTreeSet Address) :=
  addresses.toList.foldlM
    (fun deleted address =>
      match json[address]? with
      | none => pure deleted
      | some value => do
          let preserved ← rules.documentIsPreserved request address.ns value
          pure (if preserved then deleted else deleted.insert address)) ∅

/-- What a scoped replacement decides before it writes anything. -/
structure ProjectionPlan (Value : Type) where
  closure : PreparedSourceClosure Value
  deletedJson : ExtTreeSet Address
  deletedEvents : Nat
  retainedEvents : List MemoryStoreEvent

namespace InMemoryStoreEngine

variable [DecidableEq Value]

def planScopedProjection (engine : InMemoryStoreEngine) (encoding : Encoding Value)
    (rules : ProjectionRules Value) (request : StoreScopedProjectionReplaceRequest Value)
    (admission : StoreTransactionAdmission) (nowSecs : Nat)
    (state : InMemoryStoreEngineState Value)
    : Except Error (ProjectionPlan Value) := do
  admission.validateInsideEngineFence engine.capacity engine.admissionAuthority nowSecs
  let capacity := admission.operationCapacity
  let actual ← rules.actualProjection request capacity state.json state.events
  let closure ← prepareSourceClosure rules request actual capacity state.json
  let addresses ←
    rules.scopedAddresses request.jsonNamespaces state.json request.scope capacity
  let deletedJson ← deletedProjectionJson rules request state.json addresses
  let deletedEvents := state.events.countP (eventIsReplacedByScopedProjection rules request)
  let retainedEvents :=
    state.events.filter (fun event => !eventIsReplacedByScopedProjection rules request event)
  let nextEntries := state.json.size + state.blobs.size - deletedJson.size
    + request.jsonDocs.length + closure.addedEntries
  let nextEvents :=
    state.events.length - deletedEvents + request.events.length + closure.events.length
  forM request.jsonDocs fun doc =>
    require (!(state.json.contains doc.address && !deletedJson.contains doc.address))
      (projectionError
        s!"replacement address {doc.address.ns}/{doc.address.key} is owned by another projection scope")
  require
    (!(request.events ++ closure.events).any
      (fun event => (retainedEvents.map (·.eventId)).contains event.eventId))
    (projectionError "replacement would create a duplicate event id")
  let _ ← validateScopedProjectionPostImage encoding rules admission request
    { kvEntries := nextEntries
      blobBytes := blobBytes state.blobs
      eventCount := nextEvents }
  pure { closure, deletedJson, deletedEvents, retainedEvents }

def replaceScopedProjection (engine : InMemoryStoreEngine) (encoding : Encoding Value)
    (rules : ProjectionRules Value) (request : StoreScopedProjectionReplaceRequest Value)
    (admission : StoreTransactionAdmission) (nowSecs : Nat)
    (state : InMemoryStoreEngineState Value)
    : InMemoryStoreEngineState Value × Except Error StoreScopedProjectionReplaceReport :=
  match engine.planScopedProjection encoding rules request admission nowSecs state with
  | .error error => (state, .error error)
  | .ok plan =>
      let json := plan.deletedJson.toList.foldl (fun json address => json.erase address) state.json
      let events := plan.retainedEvents ++ request.events ++ plan.closure.events
      ({ state with
          json := (request.jsonDocs ++ plan.closure.documents).foldl
            (fun json doc => json.insert doc.address doc.value) json
          events := events
          eventIds := ExtTreeSet.ofList (events.map (·.eventId)) },
        .ok
          { admissionReportId := admission.reportId
            deletedJson := plan.deletedJson.size
            insertedJson := request.jsonDocs.length
            deletedEvents := plan.deletedEvents
            insertedEvents := request.events.length })

end InMemoryStoreEngine

/-! ## Snapshots -/

structure StoreSnapshotReplaceReport where
  jsonDeleted : Nat
  blobsDeleted : Nat
  eventsImported : Nat
deriving DecidableEq, Repr

structure SnapshotImport (Value : Type) where
  jsonNamespaces : List String
  blobNamespaces : List String
  jsonDocs : List (StoreSnapshotJsonDoc Value)
  blobs : List StoreSnapshotBlob
  events : List MemoryStoreEvent

def checkSnapshotEvent (capacity : StoreCapacityBudget) (eventIds : ExtTreeSet String)
    (event : MemoryStoreEvent)
    : Except Error (ExtTreeSet String) := do
  enforceEventKeyBudget capacity event "in_memory_snapshot_import"
  require (!eventIds.contains event.eventId)
    (.config "store_event_log" s!"duplicate event id {event.eventId}")
  pure (eventIds.insert event.eventId)

namespace InMemoryStoreEngine

/-- The checks of a snapshot import; on success the ids of the imported events. -/
def planSnapshot (engine : InMemoryStoreEngine) (snapshot : SnapshotImport Value)
    (state : InMemoryStoreEngineState Value)
    : Except Error (ExtTreeSet String) := do
  let capacity := engine.capacity
  require (snapshot.events.length ≤ capacity.eventLogMaxItems)
    (storeBudgetError
      s!"event log items {snapshot.events.length} exceed {capacity.eventLogMaxItems}")
  let eventIds ← snapshot.events.foldlM (checkSnapshotEvent capacity) ∅
  forM (snapshot.jsonDocs.map (·.address)) fun address =>
    enforceLogicalKeyBudget capacity address "in_memory_snapshot_import"
  forM (snapshot.blobs.map (·.address)) fun address =>
    enforceLogicalKeyBudget capacity address "in_memory_snapshot_import"
  let retainedJson := state.json.keys.countP (fun a => !snapshot.jsonNamespaces.contains a.ns)
  let finalJson := retainedJson + snapshot.jsonDocs.length
  require (finalJson ≤ capacity.kvMaxEntries)
    (storeBudgetError s!"kv entries {finalJson} exceed {capacity.kvMaxEntries}")
  let finalBlobBytes :=
    blobBytes (OrderedMap.retain (fun a => !snapshot.blobNamespaces.contains a.ns) state.blobs)
      + (snapshot.blobs.map (·.value.length)).sum
  require (finalBlobBytes ≤ capacity.blobMaxBytes)
    (storeBudgetError
      s!"restore post-image blob bytes {finalBlobBytes} exceed {capacity.blobMaxBytes}")
  pure eventIds

def replaceSnapshot (engine : InMemoryStoreEngine) (snapshot : SnapshotImport Value)
    (state : InMemoryStoreEngineState Value)
    : InMemoryStoreEngineState Value × Except Error StoreSnapshotReplaceReport :=
  match engine.planSnapshot snapshot state with
  | .error error => (state, .error error)
  | .ok eventIds =>
      let jsonKeys := snapshot.jsonDocs.map (·.address)
      let blobKeys := snapshot.blobs.map (·.address)
      let json := OrderedMap.retain (fun a => !snapshot.jsonNamespaces.contains a.ns) state.json
      let blobs :=
        OrderedMap.retain (fun a => !snapshot.blobNamespaces.contains a.ns) state.blobs
      ({ state with
          json := snapshot.jsonDocs.foldl (fun json doc => json.insert doc.address doc.value) json
          blobs := snapshot.blobs.foldl
            (fun blobs blob => blobs.insert blob.address blob.value) blobs
          events := snapshot.events
          eventIds := eventIds },
        .ok
          { jsonDeleted := state.json.keys.countP
              (fun a => snapshot.jsonNamespaces.contains a.ns && !jsonKeys.contains a)
            blobsDeleted := state.blobs.keys.countP
              (fun a => snapshot.blobNamespaces.contains a.ns && !blobKeys.contains a)
            eventsImported := snapshot.events.length })

end InMemoryStoreEngine

end BeetleMemory.Store
