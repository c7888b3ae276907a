import BeetleMemory.Store.Basic

/-! The append-only event log's records and their schema check. -/

namespace BeetleMemory.Store

open Std

def storeSchemaVersion : Nat := 17

inductive MemoryStoreEventKind where
  | memoryWrite
  | memoryMerge
  | memoryControl
  | memoryDelete
  | memoryPolicy
  | memoryMaintenance
  | memoryProjection
  | runtimeLifecycle
  | operatorAction
deriving DecidableEq, Repr

/-- The dotted name an event carries beside its kind. -/
def MemoryStoreEventKind.asStr : MemoryStoreEventKind → String
  | .memoryWrite => "memory.write"
  | .memoryMerge => "memory.merge"
  | .memoryControl => "memory.control"
  | .memoryDelete => "memory.delete"
  | .memoryPolicy => "memory.policy"
  | .memoryMaintenance => "memory.maintenance"
  | .memoryProjection => "memory.projection"
  | .runtimeLifecycle => "runtime.lifecycle"
  | .operatorAction => "operator.action"

inductive StorePhysicalOwningScope where
  | subject (mountedSubjectId : String)
  | sharedProgram
deriving DecidableEq, Repr

structure StoreEventScope where
  agentId : String
  ownerId : String
  channel : String
  chatId : String
  memorySpaceId : String
  subjectId : String
  physicalOwningScope : StorePhysicalOwningScope
  conversationId : Option String
deriving DecidableEq, Repr

/-- The scope of an event the runtime itself records. -/
def StoreEventScope.system (operation : String) : StoreEventScope where
  agentId := "system"
  ownerId := "system"
  channel := "runtime"
  chatId := operation
  memorySpaceId := "system"
  subjectId := "system"
  physicalOwningScope := .subject "system"
  conversationId := none

structure MemoryStoreEvent where
  eventId : String
  kind : MemoryStoreEventKind
  kindName : String
  scope : StoreEventScope
  plane : String
  recordKey : String
  contentHash : String
  schemaVersion : Nat
  timestampUnixSecs : Nat
  payload : ExtTreeMap String String
deriving DecidableEq

namespace MemoryStoreEvent

/-- A new event of the current schema, with empty plane, key, hash and payload. -/
def new (eventId : String) (kind : MemoryStoreEventKind) (scope : StoreEventScope)
    (timestampUnixSecs : Nat)
    : MemoryStoreEvent where
  eventId := eventId
  kind := kind
  kindName := kind.asStr
  scope := scope
  plane := ""
  recordKey := ""
  contentHash := ""
  schemaVersion := storeSchemaVersion
  timestampUnixSecs := timestampUnixSecs
  payload := ∅

/-- A stored event is readable only in the current schema and with canonical identity. -/
def validateCurrentSchema (event : MemoryStoreEvent) (stage : String) : Except Error Unit := do
  require (event.schemaVersion = storeSchemaVersion)
    (.config stage s!"unsupported event schema version {event.schemaVersion}")
  require
    (!(trimIsEmpty event.eventId || event.kindName != event.kind.asStr
      || trimIsEmpty event.scope.memorySpaceId || trimIsEmpty event.scope.subjectId))
    (.config stage "event identity, kind, memory space, and subject must be canonical")

end MemoryStoreEvent

/-- The record key of an event is within the limit; the label names the caller. -/
def enforceEventKeyBudget (capacity : StoreCapacityBudget) (event : MemoryStoreEvent)
    (label : String)
    : Except Error Unit :=
  require (textLen event.recordKey ≤ capacity.eventRecordKeyMaxBytes)
    (storeBudgetError
      s!"{label} event record key bytes {textLen event.recordKey} exceed {capacity.eventRecordKeyMaxBytes}")

end BeetleMemory.Store
