import BeetleMemory.Lib.OrderedMap
import BeetleMemory.Store.Admission

/-! Transaction planning: dependency expansion, preconditions, mutations and accounting.
The planner sees the touched part of the store and the store's usage counts, never the
whole store.
-/

namespace BeetleMemory.Store

open Std

variable {Value : Type}

/-- The documents, blobs and new events a plan works on. -/
structure BackendTransactionState (Value : Type) where
  json : ExtTreeMap Address Value
  blobs : ExtTreeMap Address Bytes
  events : List MemoryStoreEvent

structure StoreBackendUsage where
  kvEntries : Nat
  blobBytes : Nat
  eventCount : Nat
deriving DecidableEq, Repr

structure StoreTransactionContext (Value : Type) where
  touched : BackendTransactionState Value
  usage : StoreBackendUsage
  existingEventIds : ExtTreeSet String

structure StoreMutationBudgetReport where
  admissionReportId : String
  requiredEvents : Nat
  remainingEvents : Nat
  requiredKvEntries : Nat
  remainingKvEntries : Nat
  requiredBlobBytes : Nat
  remainingBlobBytes : Nat
deriving DecidableEq, Repr

structure StoreTransactionReport where
  transactionId : String
  changedJson : Nat
  changedBlobs : Nat
  appendedEvents : Nat
  eventIds : List String
  budgetReport : StoreMutationBudgetReport
deriving DecidableEq, Repr

structure StoreTransactionPlan (Value : Type) where
  effectiveMutations : List (StoreEngineMutation Value)
  nextTouched : BackendTransactionState Value
  report : StoreTransactionReport

/-- The rules of the governed owners. They name the documents a value depends on, with the
error that stops the walk after them if there is one, and they accept or reject a
post-image. Every result below holds whatever these rules are.
-/
structure OwnerRules (Value : Type) where
  dependencies : String → Value → List Address × Option Error
  validate : StoreTransactionRequest Value → List (StoreEngineMutation Value)
    → BackendTransactionState Value → BackendTransactionState Value → ExtTreeSet Address
    → Except Error Unit

/-- The serialized bytes of all documents of a map. -/
def serializedJsonBytes (encoding : Encoding Value) (json : ExtTreeMap Address Value) : Nat :=
  OrderedMap.total (fun _ value => (encoding.toVec value).length) json

/-- The bytes of all blobs of a map. -/
def blobBytes (blobs : ExtTreeMap Address Bytes) : Nat :=
  OrderedMap.total (fun _ value => value.length) blobs

/-! ## Owner dependencies -/

/-- One dependency joins the pending addresses unless it is known already. -/
def emitDependency (capacity : StoreCapacityBudget) (visited pending : ExtTreeSet Address)
    (address : Address)
    : Except Error (ExtTreeSet Address) :=
  if visited.contains address || pending.contains address then .ok pending
  else do
    require (visited.size + pending.size < capacity.kvMaxEntries)
      (storeBudgetError "Soul dependency read-set exceeds address budget")
    enforceLogicalKeyBudget capacity address "memory_write_transaction"
    pure (pending.insert address)

/-- The dependencies of one document join the pending addresses. -/
def enqueueDependencies (encoding : Encoding Value) (rules : OwnerRules Value)
    (capacity : StoreCapacityBudget) (visited pending : ExtTreeSet Address) (ns : String)
    (value : Value)
    : Except Error (ExtTreeSet Address) := do
  require ((encoding.toVec value).length ≤ capacity.snapshotMaxBytes)
    (storeBudgetError "Soul dependency document exceeds byte budget")
  let found := rules.dependencies ns value
  let pending ← found.1.foldlM (emitDependency capacity visited) pending
  match found.2 with
  | none => pure pending
  | some error => .error error

/-- The walk over pending addresses, smallest first. Each step visits a new address, so the
fuel is never used up before the address budget is.
-/
def walkDependencies (encoding : Encoding Value) (rules : OwnerRules Value)
    (capacity : StoreCapacityBudget)
    (readJson : Address → Nat → Except Error (Option Value))
    : Nat → ExtTreeSet Address → ExtTreeSet Address → Nat → ExtTreeMap Address Value
      → Except Error (ExtTreeMap Address Value)
  | 0, _, _, _, _ =>
      .error (storeBudgetError "Soul dependency read-set exceeds operation budget")
  | fuel + 1, visited, pending, bytes, touched =>
      match pending.toList.head? with
      | none => .ok touched
      | some address =>
          let pending := pending.erase address
          if visited.contains address then
            walkDependencies encoding rules capacity readJson fuel visited pending bytes touched
          else do
            let visited := visited.insert address
            require
              (visited.size ≤ capacity.kvMaxEntries && bytes ≤ capacity.snapshotMaxBytes)
              (storeBudgetError "Soul dependency read-set exceeds operation budget")
            enforceLogicalKeyBudget capacity address "memory_write_transaction"
            let read ← readJson address (capacity.snapshotMaxBytes - bytes)
            match read with
            | none =>
                walkDependencies encoding rules capacity readJson fuel visited pending bytes
                  touched
            | some value => do
                let bytes := bytes + (encoding.toVec value).length
                require (bytes ≤ capacity.snapshotMaxBytes)
                  (storeBudgetError "Soul dependency read-set exceeds byte budget")
                let pending ←
                  enqueueDependencies encoding rules capacity visited pending address.ns value
                walkDependencies encoding rules capacity readJson fuel visited pending bytes
                  (touched.insert address value)

/-- The touched documents grow by everything their old and proposed values depend on. -/
def expandOwnerTransactionDependencies (encoding : Encoding Value) (rules : OwnerRules Value)
    (request : StoreTransactionRequest Value) (capacity : StoreCapacityBudget)
    (touched : ExtTreeMap Address Value)
    (readJson : Address → Nat → Except Error (Option Value))
    : Except Error (ExtTreeMap Address Value) := do
  let visited := request.readSet.json.insertMany touched.keys
  let bytes := serializedJsonBytes encoding touched
  require (visited.size ≤ capacity.kvMaxEntries && bytes ≤ capacity.snapshotMaxBytes)
    (storeBudgetError "initial transaction read-set exceeds operation budget")
  let pending ← touched.toList.foldlM
    (fun pending entry =>
      enqueueDependencies encoding rules capacity visited pending entry.1.ns entry.2) ∅
  let pending ← request.mutations.foldlM
    (fun pending mutation =>
      match mutation with
      | .putJson address value =>
          enqueueDependencies encoding rules capacity visited pending address.ns value
      | _ => pure pending) pending
  walkDependencies encoding rules capacity readJson (capacity.kvMaxEntries + 1) visited pending
    bytes touched

/-! ## Preconditions -/

private def preflightFailed (message : String) : Error :=
  .config "memory_write_transaction_preflight_failed" message

private def preconditionFailed (message : String) : Error :=
  .conflict "memory_write_transaction_precondition_failed" message

section Preconditions

variable [DecidableEq Value]

/-- One precondition against the documents read; the state holds the addresses seen. -/
def validatePrecondition (capacity : StoreCapacityBudget) (json : ExtTreeMap Address Value)
    (addresses : ExtTreeSet Address) (precondition : StoreJsonPrecondition Value)
    : Except Error (ExtTreeSet Address) := do
  let address := precondition.address
  enforceLogicalKeyBudget capacity address "memory_write_transaction"
  require (!addresses.contains address)
    (preflightFailed s!"duplicate precondition for {address.ns}/{address.key}")
  require (json[address]? = precondition.expected)
    (preconditionFailed s!"json precondition failed for {address.ns}/{address.key}")
  pure (addresses.insert address)

def validatePreconditions (capacity : StoreCapacityBudget)
    (preconditions : List (StoreJsonPrecondition Value)) (json : ExtTreeMap Address Value)
    : Except Error (ExtTreeSet Address) :=
  preconditions.foldlM (validatePrecondition capacity json) ∅

end Preconditions

/-- The digest a blob precondition compares. -/
def blobDigest (encoding : Encoding Value) (value : Bytes) : String :=
  "sha256:" ++ encoding.sha256 value

/-- A digest text is canonical: the tag and 64 lower-case hexadecimal digits. -/
def isCanonicalBlobDigest (digest : String) : Bool :=
  (dropStart digest "sha256:").any fun hex =>
    textLen hex == 64
      && hex.toList.all (fun c => ('0' ≤ c && c ≤ '9') || ('a' ≤ c && c ≤ 'f'))

def validateBlobPrecondition (encoding : Encoding Value) (capacity : StoreCapacityBudget)
    (blobs : ExtTreeMap Address Bytes) (addresses : ExtTreeSet Address)
    (precondition : StoreBlobPrecondition)
    : Except Error (ExtTreeSet Address) := do
  let address := precondition.address
  require (precondition.expectedDigest.all isCanonicalBlobDigest)
    (preflightFailed s!"non-canonical blob digest for {address.ns}/{address.key}")
  enforceLogicalKeyBudget capacity address "memory_write_transaction"
  require (!addresses.contains address)
    (preflightFailed s!"duplicate blob precondition for {address.ns}/{address.key}")
  require (blobs[address]?.map (blobDigest encoding) = precondition.expectedDigest)
    (preconditionFailed s!"blob precondition failed for {address.ns}/{address.key}")
  pure (addresses.insert address)

def validateBlobPreconditions (encoding : Encoding Value) (capacity : StoreCapacityBudget)
    (preconditions : List StoreBlobPrecondition) (blobs : ExtTreeMap Address Bytes)
    : Except Error (ExtTreeSet Address) :=
  preconditions.foldlM (validateBlobPrecondition encoding capacity blobs) ∅

/-! ## Mutations -/

/-- A conditional delete becomes a delete and its event if the address is present in the
state before the transaction, and nothing otherwise.
-/
def materializeMutation (encoding : Encoding Value) (current : BackendTransactionState Value)
    : StoreEngineMutation Value → List (StoreEngineMutation Value)
  | .deleteJsonIfPresent address template =>
      match current.json[address]? with
      | none => []
      | some beforeImage =>
          [.deleteJson address, .appendEvent (template.materializeJson encoding beforeImage)]
  | .deleteBlobIfPresent address template =>
      match current.blobs[address]? with
      | none => []
      | some beforeImage =>
          [.deleteBlob address, .appendEvent (template.materializeBlob encoding beforeImage)]
  | mutation => [mutation]

def materializeConditionalMutations (encoding : Encoding Value)
    (mutations : List (StoreEngineMutation Value)) (current : BackendTransactionState Value)
    : List (StoreEngineMutation Value) :=
  mutations.flatMap (materializeMutation encoding current)

/-- What the mutation loop carries from one mutation to the next. -/
structure PlanState (Value : Type) where
  next : BackendTransactionState Value
  changedJson : ExtTreeSet Address
  changedBlobs : ExtTreeSet Address
  eventIds : List String
  knownEventIds : ExtTreeSet String
  mutatedJson : ExtTreeSet Address
  mutatedBlobs : ExtTreeSet Address

def rejectDuplicateMutation (addresses : ExtTreeSet Address) (address : Address)
    : Except Error (ExtTreeSet Address) := do
  require (!addresses.contains address)
    (preflightFailed s!"duplicate mutation for {address.ns}/{address.key}")
  pure (addresses.insert address)

/-- One mutation of the plan, on the touched part only. -/
def planMutation (capacity : StoreCapacityBudget) (state : PlanState Value)
    : StoreEngineMutation Value → Except Error (PlanState Value)
  | .putJson address value => do
      enforceLogicalKeyBudget capacity address "memory_write_transaction"
      let mutatedJson ← rejectDuplicateMutation state.mutatedJson address
      pure { state with
        next := { state.next with json := state.next.json.insert address value }
        changedJson := state.changedJson.insert address
        mutatedJson := mutatedJson }
  | .deleteJson address => do
      enforceLogicalKeyBudget capacity address "memory_write_transaction"
      let mutatedJson ← rejectDuplicateMutation state.mutatedJson address
      pure { state with
        next := { state.next with json := state.next.json.erase address }
        changedJson := if state.next.json.contains address
          then state.changedJson.insert address else state.changedJson
        mutatedJson := mutatedJson }
  | .deleteJsonIfPresent _ _ | .deleteBlobIfPresent _ _ =>
      .error
        (preflightFailed "conditional mutation reached the primitive transaction executor")
  | .putBlob address value => do
      enforceLogicalKeyBudget capacity address "memory_write_transaction"
      let mutatedBlobs ← rejectDuplicateMutation state.mutatedBlobs address
      pure { state with
        next := { state.next with blobs := state.next.blobs.insert address value }
        changedBlobs := state.changedBlobs.insert address
        mutatedBlobs := mutatedBlobs }
  | .deleteBlob address => do
      enforceLogicalKeyBudget capacity address "memory_write_transaction"
      let mutatedBlobs ← rejectDuplicateMutation state.mutatedBlobs address
      pure { state with
        next := { state.next with blobs := state.next.blobs.erase address }
        changedBlobs := if state.next.blobs.contains address
          then state.changedBlobs.insert address else state.changedBlobs
        mutatedBlobs := mutatedBlobs }
  | .appendEvent event => do
      enforceEventKeyBudget capacity event "memory_write_transaction"
      require (!state.knownEventIds.contains event.eventId)
        (.config "store_event_log" s!"duplicate event id {event.eventId}")
      pure { state with
        next := { state.next with events := state.next.events ++ [event] }
        eventIds := state.eventIds ++ [event.eventId]
        knownEventIds := state.knownEventIds.insert event.eventId }

def planMutations (capacity : StoreCapacityBudget)
    (effective : List (StoreEngineMutation Value)) (context : StoreTransactionContext Value)
    : Except Error (PlanState Value) :=
  effective.foldlM (planMutation capacity)
    { next := context.touched
      changedJson := ∅
      changedBlobs := ∅
      eventIds := []
      knownEventIds := context.existingEventIds
      mutatedJson := ∅
      mutatedBlobs := ∅ }

/-! ## Accounting and the plan -/

/-- The store's usage after the plan: its usage before, minus the touched part before,
plus the touched part after.
-/
def nextUsage (usage : StoreBackendUsage) (current : BackendTransactionState Value)
    (state : PlanState Value)
    : StoreBackendUsage where
  kvEntries := usage.kvEntries - (current.json.size + current.blobs.size)
    + (state.next.json.size + state.next.blobs.size)
  blobBytes := usage.blobBytes - blobBytes current.blobs + blobBytes state.next.blobs
  eventCount := usage.eventCount + state.eventIds.length

def enforceUsage (capacity : StoreCapacityBudget) (next : StoreBackendUsage)
    : Except Error Unit := do
  require (next.kvEntries ≤ capacity.kvMaxEntries)
    (storeBudgetError s!"kv entries {next.kvEntries} exceed {capacity.kvMaxEntries}")
  require (next.blobBytes ≤ capacity.blobMaxBytes)
    (storeBudgetError s!"blob bytes {next.blobBytes} exceed {capacity.blobMaxBytes}")
  require (next.eventCount ≤ capacity.eventLogMaxItems)
    (storeBudgetError s!"event log items {next.eventCount} exceed {capacity.eventLogMaxItems}")

def backendBudgetReport (admission : StoreTransactionAdmission)
    (current next : StoreBackendUsage)
    : StoreMutationBudgetReport :=
  let capacity := admission.operationCapacity
  { admissionReportId := admission.reportId
    requiredEvents := next.eventCount - current.eventCount
    remainingEvents := capacity.eventLogMaxItems - next.eventCount
    requiredKvEntries := next.kvEntries - current.kvEntries
    remainingKvEntries := capacity.kvMaxEntries - next.kvEntries
    requiredBlobBytes := next.blobBytes - current.blobBytes
    remainingBlobBytes := capacity.blobMaxBytes - next.blobBytes }

/-- The planner: every check of a commit, and what the commit will write. -/
def applyTransaction [DecidableEq Value] (encoding : Encoding Value) (rules : OwnerRules Value)
    (admission : StoreTransactionAdmission) (request : StoreTransactionRequest Value)
    (context : StoreTransactionContext Value)
    : Except Error (StoreTransactionPlan Value) := do
  require (!trimIsEmpty request.transactionId)
    (preflightFailed "transaction_id is required")
  let capacity := admission.operationCapacity
  let current := context.touched
  require
    (current.json.size ≤ capacity.kvMaxEntries
      && serializedJsonBytes encoding current.json ≤ capacity.snapshotMaxBytes)
    (storeBudgetError "transaction JSON read-set exceeds the pinned operation budget")
  let effective := materializeConditionalMutations encoding request.mutations current
  let _ ← validatePreconditions capacity request.preconditions current.json
  let _ ← validateBlobPreconditions encoding capacity request.blobPreconditions current.blobs
  let state ← planMutations capacity effective context
  rules.validate request effective current state.next state.changedJson
  let next := nextUsage context.usage current state
  enforceUsage capacity next
  pure
    { effectiveMutations := effective
      nextTouched := state.next
      report :=
        { transactionId := request.transactionId
          changedJson := state.changedJson.size
          changedBlobs := state.changedBlobs.size
          appendedEvents := state.eventIds.length
          eventIds := state.eventIds
          budgetReport := backendBudgetReport admission context.usage next } }

end BeetleMemory.Store
