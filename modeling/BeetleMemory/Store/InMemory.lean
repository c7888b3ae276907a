import BeetleMemory.Store.Planner

/-! The in-memory backend: its state and its transaction commit.
A commit runs under the engine's lock, so it is one step on the state. The step returns the
state also when it fails, as the source mutates the locked state in place.
-/

namespace BeetleMemory.Store

open Std

variable {Value : Type}

structure InMemoryStoreEngineState (Value : Type) where
  json : ExtTreeMap Address Value
  blobs : ExtTreeMap Address Bytes
  events : List MemoryStoreEvent
  eventIds : ExtTreeSet String

/-- The state a new engine starts with. -/
def InMemoryStoreEngineState.empty : InMemoryStoreEngineState Value where
  json := ∅
  blobs := ∅
  events := []
  eventIds := ∅

structure InMemoryStoreEngine where
  capacity : StoreCapacityBudget
  admissionAuthority : Nat
deriving DecidableEq, Repr

/-- The usage counts the commit hands to the planner. -/
def InMemoryStoreEngineState.usage (state : InMemoryStoreEngineState Value)
    : StoreBackendUsage where
  kvEntries := state.json.size + state.blobs.size
  blobBytes := blobBytes state.blobs
  eventCount := state.events.length

/-- An address lies under a prefix read: same namespace, and a key with that beginning. -/
def matchesPrefixRead (prefixRead address : Address) : Bool :=
  address.ns == prefixRead.ns && startsWith address.key prefixRead.key

/-- The documents a request reads by address or by prefix, before dependencies. -/
def InMemoryStoreEngineState.touchedJson (state : InMemoryStoreEngineState Value)
    (readSet : StoreTransactionReadSet)
    : ExtTreeMap Address Value :=
  readSet.jsonPrefixes.toList.foldl
    (fun touched prefixRead =>
      OrderedMap.copyInto touched state.json
        (state.json.keys.filter (matchesPrefixRead prefixRead)))
    (OrderedMap.copyInto ∅ state.json readSet.json.toList)

def InMemoryStoreEngineState.touchedBlobs (state : InMemoryStoreEngineState Value)
    (readSet : StoreTransactionReadSet)
    : ExtTreeMap Address Bytes :=
  OrderedMap.copyInto ∅ state.blobs readSet.blobs.toList

/-- The event ids of the request that the log already has. -/
def InMemoryStoreEngineState.existingEventIds (state : InMemoryStoreEngineState Value)
    (mutations : List (StoreEngineMutation Value))
    : ExtTreeSet String :=
  ExtTreeSet.ofList ((mutations.filterMap mutationEventId).filter state.eventIds.contains)

/-- One primitive mutation on the whole state; a conditional one is refused. -/
def applyPrimitiveMutation (state : InMemoryStoreEngineState Value)
    : StoreEngineMutation Value → Except Error (InMemoryStoreEngineState Value)
  | .putJson address value => .ok { state with json := state.json.insert address value }
  | .deleteJson address => .ok { state with json := state.json.erase address }
  | .putBlob address value => .ok { state with blobs := state.blobs.insert address value }
  | .deleteBlob address => .ok { state with blobs := state.blobs.erase address }
  | .appendEvent event =>
      .ok { state with
        eventIds := state.eventIds.insert event.eventId
        events := state.events ++ [event] }
  | .deleteJsonIfPresent _ _ | .deleteBlobIfPresent _ _ =>
      .error
        (.config "memory_write_transaction"
          "conditional mutation reached in-memory primitive execution")

/-- The mutations in order, stopping where one is refused. -/
def applyInMemoryTransactionPlan
    : InMemoryStoreEngineState Value → List (StoreEngineMutation Value)
      → InMemoryStoreEngineState Value × Except Error Unit
  | state, [] => (state, .ok ())
  | state, mutation :: rest =>
      match applyPrimitiveMutation state mutation with
      | .ok next => applyInMemoryTransactionPlan next rest
      | .error error => (state, .error error)

namespace InMemoryStoreEngine

variable [DecidableEq Value]

/-- Everything a commit does before its first write. -/
def planTransaction (engine : InMemoryStoreEngine) (encoding : Encoding Value)
    (rules : OwnerRules Value) (request : StoreTransactionRequest Value)
    (admission : StoreTransactionAdmission) (nowSecs : Nat)
    (state : InMemoryStoreEngineState Value)
    : Except Error (StoreTransactionPlan Value) := do
  admission.validateInsideEngineFence engine.capacity engine.admissionAuthority nowSecs
  let json ← expandOwnerTransactionDependencies encoding rules request
    admission.operationCapacity (state.touchedJson request.readSet)
    (fun address _ => .ok state.json[address]?)
  applyTransaction encoding rules admission request
    { touched := { json, blobs := state.touchedBlobs request.readSet, events := [] }
      usage := state.usage
      existingEventIds := state.existingEventIds request.mutations }

def commitTransactionAdmitted (engine : InMemoryStoreEngine) (encoding : Encoding Value)
    (rules : OwnerRules Value) (request : StoreTransactionRequest Value)
    (admission : StoreTransactionAdmission) (nowSecs : Nat)
    (state : InMemoryStoreEngineState Value)
    : InMemoryStoreEngineState Value × Except Error StoreTransactionReport :=
  match engine.planTransaction encoding rules request admission nowSecs state with
  | .error error => (state, .error error)
  | .ok plan =>
      match applyInMemoryTransactionPlan state plan.effectiveMutations with
      | (next, .ok ()) => (next, .ok plan.report)
      | (next, .error error) => (next, .error error)

end InMemoryStoreEngine

end BeetleMemory.Store
