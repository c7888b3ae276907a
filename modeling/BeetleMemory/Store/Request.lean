import BeetleMemory.Store.Event

/-! Transaction requests: preconditions, mutations and the read set that covers them.
The governed batch and the authorities a request may carry are read by the owner rules
only, so they belong to those rules here and not to the request.
-/

namespace BeetleMemory.Store

open Std

/-- The parts of serde_json and of the hash functions that the planner relies on. -/
structure Encoding (Value : Type) where
  toVec : Value → Bytes
  contentHash : Bytes → String
  sha256 : Bytes → String

inductive StoreJsonPrecondition (Value : Type) where
  | absent (address : Address)
  | exact (address : Address) (value : Value)
deriving DecidableEq

inductive StoreBlobPrecondition where
  | absent (address : Address)
  | exactDigest (address : Address) (contentDigest : String)
deriving DecidableEq

def StoreJsonPrecondition.address {Value : Type} : StoreJsonPrecondition Value → Address
  | .absent address => address
  | .exact address _ => address

/-- The value the address must hold. -/
def StoreJsonPrecondition.expected {Value : Type} : StoreJsonPrecondition Value → Option Value
  | .absent _ => none
  | .exact _ value => some value

def StoreBlobPrecondition.address : StoreBlobPrecondition → Address
  | .absent address => address
  | .exactDigest address _ => address

def StoreBlobPrecondition.expectedDigest : StoreBlobPrecondition → Option String
  | .absent _ => none
  | .exactDigest _ digest => some digest

/-- The event a conditional delete records if the address turns out to be present. -/
structure ConditionalDeleteEventTemplate where
  eventId : String
  kind : MemoryStoreEventKind
  scope : StoreEventScope
  plane : String
  recordKey : String
  timestampUnixSecs : Nat
  payload : ExtTreeMap String String
deriving DecidableEq

inductive StoreEngineMutation (Value : Type) where
  | putJson (address : Address) (value : Value)
  | deleteJson (address : Address)
  | deleteJsonIfPresent (address : Address) (eventTemplate : ConditionalDeleteEventTemplate)
  | putBlob (address : Address) (value : Bytes)
  | deleteBlob (address : Address)
  | deleteBlobIfPresent (address : Address) (eventTemplate : ConditionalDeleteEventTemplate)
  | appendEvent (event : MemoryStoreEvent)
deriving DecidableEq

variable {Value : Type}

namespace ConditionalDeleteEventTemplate

def materializeBytes (encoding : Encoding Value) (template : ConditionalDeleteEventTemplate)
    (beforeImageBytes : Bytes)
    : MemoryStoreEvent :=
  { MemoryStoreEvent.new template.eventId template.kind template.scope
      template.timestampUnixSecs with
    plane := template.plane
    recordKey := template.recordKey
    contentHash := encoding.contentHash beforeImageBytes
    payload := template.payload }

def materializeJson (encoding : Encoding Value) (template : ConditionalDeleteEventTemplate)
    (beforeImage : Value)
    : MemoryStoreEvent :=
  template.materializeBytes encoding (encoding.toVec beforeImage)

def materializeBlob (encoding : Encoding Value) (template : ConditionalDeleteEventTemplate)
    (beforeImage : Bytes)
    : MemoryStoreEvent :=
  template.materializeBytes encoding beforeImage

end ConditionalDeleteEventTemplate

namespace StoreEngineMutation

/-- The document a mutation may change. -/
def jsonAddress? : StoreEngineMutation Value → Option Address
  | .putJson address _ | .deleteJson address | .deleteJsonIfPresent address _ => some address
  | _ => none

/-- The blob a mutation may change. -/
def blobAddress? : StoreEngineMutation Value → Option Address
  | .putBlob address _ | .deleteBlob address | .deleteBlobIfPresent address _ => some address
  | _ => none

end StoreEngineMutation

/-- The event id a mutation may add to the log. -/
def mutationEventId : StoreEngineMutation Value → Option String
  | .appendEvent event => some event.eventId
  | .deleteJsonIfPresent _ template | .deleteBlobIfPresent _ template => some template.eventId
  | _ => none

structure StoreTransactionReadSet where
  json : ExtTreeSet Address
  jsonPrefixes : ExtTreeSet Address
  blobs : ExtTreeSet Address

/-- The addresses named by the preconditions and the mutations. -/
def StoreTransactionReadSet.fromRequestParts (preconditions : List (StoreJsonPrecondition Value))
    (mutations : List (StoreEngineMutation Value))
    : StoreTransactionReadSet where
  json := (ExtTreeSet.ofList (preconditions.map (·.address))).insertMany
    (mutations.filterMap (·.jsonAddress?))
  jsonPrefixes := ∅
  blobs := ExtTreeSet.ofList (mutations.filterMap (·.blobAddress?))

/-- A request whose read set covers every address it checks or changes. -/
structure StoreTransactionRequest (Value : Type) where
  transactionId : String
  preconditions : List (StoreJsonPrecondition Value)
  blobPreconditions : List StoreBlobPrecondition
  mutations : List (StoreEngineMutation Value)
  readSet : StoreTransactionReadSet
  coversPreconditions : ∀ p ∈ preconditions, p.address ∈ readSet.json
  coversBlobPreconditions : ∀ p ∈ blobPreconditions, p.address ∈ readSet.blobs
  coversJsonMutations : ∀ m ∈ mutations, ∀ a ∈ m.jsonAddress?, a ∈ readSet.json
  coversBlobMutations : ∀ m ∈ mutations, ∀ a ∈ m.blobAddress?, a ∈ readSet.blobs

namespace StoreTransactionRequest

def new (transactionId : String) (preconditions : List (StoreJsonPrecondition Value))
    (mutations : List (StoreEngineMutation Value))
    : StoreTransactionRequest Value where
  transactionId := transactionId
  preconditions := preconditions
  blobPreconditions := []
  mutations := mutations
  readSet := .fromRequestParts preconditions mutations
  coversPreconditions p hp := by
    simp only [StoreTransactionReadSet.fromRequestParts, ExtTreeSet.mem_insertMany_list,
      ExtTreeSet.mem_ofList, List.contains_iff_mem]
    exact .inl (List.mem_map_of_mem hp)
  coversBlobPreconditions := by simp
  coversJsonMutations m hm a ha := by
    simp only [StoreTransactionReadSet.fromRequestParts, ExtTreeSet.mem_insertMany_list,
      ExtTreeSet.mem_ofList, List.contains_iff_mem]
    exact .inr (List.mem_filterMap.mpr ⟨m, hm, ha⟩)
  coversBlobMutations m hm a ha := by
    simp only [StoreTransactionReadSet.fromRequestParts, ExtTreeSet.mem_ofList,
      List.contains_iff_mem]
    exact List.mem_filterMap.mpr ⟨m, hm, ha⟩

end StoreTransactionRequest

end BeetleMemory.Store
