import BeetleMemory.LongTerm.Control

/-! The manifest of a scope: the bindings of its heads and transitions, built only over a closed
scope. Where the source sorts by a full order, the items have distinct owners or predecessors,
and these come first in the order.
-/

namespace BeetleMemory.LongTerm

open Store (Error)
open Keyed (lookup sortBy)

variable {D : Type} (digests : VersionDigests D)

/-! ## Physical keys -/

def validateScopeKeyInput (memorySpaceId factualOwnerId : String) : Except Error Unit :=
  Store.require (!notCanonical memorySpaceId && !notCanonical factualOwnerId)
    (.config "long_term_version_key" "canonical memory space and factual owner are required")

def validateKeyInput (memorySpaceId factualOwnerId : String) (ownerRef : GovernedMemoryOwnerRef)
    (ownerRevision : Nat)
    : Except Error Unit := do
  validateScopeKeyInput memorySpaceId factualOwnerId
  Store.require (ownerRef.ownerPlane == .longTerm && ownerRef.isValid && ownerRevision != 0)
    (.config "long_term_version_key"
      "scope, long-term owner and positive revision are required")

def longTermVersionHeadKey (memorySpaceId factualOwnerId : String)
    (ownerRef : GovernedMemoryOwnerRef)
    : Except Error String := do
  validateKeyInput memorySpaceId factualOwnerId ownerRef 1
  return "p8-head:" ++ digests.text "long_term_version_head_key_v6"
    [memorySpaceId, factualOwnerId, ownerRef.ownerPlane.asStr, ownerRef.ownerId]

def longTermVersionScopeManifestKey (memorySpaceId factualOwnerId : String)
    : Except Error String := do
  validateScopeKeyInput memorySpaceId factualOwnerId
  return "long-term-version-scope:" ++ digests.text "long_term_version_scope_manifest_key_v6"
    [memorySpaceId, factualOwnerId]

def scopedLongTermControlStorageKey (memorySpaceId ns logicalKey : String)
    : Except Error String := do
  let ns := trim ns
  let logicalKey := trim logicalKey
  let memorySpaceId := trim memorySpaceId
  Store.require (!ns.isEmpty && !logicalKey.isEmpty)
    (.config "long_term_control_storage_scope" "namespace and logical_key must not be empty")
  Store.require (!memorySpaceId.isEmpty)
    (.config "long_term_storage_scope" "memory_space_id must not be empty")
  return "scope:" ++ digests.text "long_term_memory_space_scope_v1" [memorySpaceId]
    ++ ":control:" ++ digests.text "long_term_control_namespace_v1" [ns]
    ++ ":doc:" ++ digests.text "long_term_control_document_v1" [logicalKey]

/-! ## Bindings -/

def LongTermMemoryVersionHeadBinding.fromHead (head : LongTermMemoryHeadManifest)
    : Except Error LongTermMemoryVersionHeadBinding := do
  Store.require head.validateContract.accepted
    (.config "long_term_version_head_binding" "head contract is invalid")
  let headPhysicalKey ←
    longTermVersionHeadKey digests head.memorySpaceId head.factualOwnerId head.ownerRef
  return { ownerRef := head.ownerRef, headPhysicalKey, headContentDigest := digests.head head
           headManifestRevision := head.manifestRevision }

namespace LongTermMemoryVersionTransitionBinding

def new (predecessor : GovernedOwnerRevisionRef)
    (controlRevisionPhysicalKey controlRevisionContentDigest : String)
    : Except Error LongTermMemoryVersionTransitionBinding := do
  Store.require (predecessor.isValid && predecessor.ownerRef.ownerPlane == .longTerm
      && !notCanonical controlRevisionPhysicalKey
      && isLowercaseSha256 controlRevisionContentDigest)
    (.config "long_term_version_transition_binding"
      "exact predecessor, canonical control key and lowercase sha256 digest are required")
  return { predecessor, controlRevisionPhysicalKey, controlRevisionContentDigest }

def validateFor (self : LongTermMemoryVersionTransitionBinding)
    (transition : GovernedOwnerTransition)
    : Except Error Unit := do
  let canonical ← new self.predecessor self.controlRevisionPhysicalKey
    self.controlRevisionContentDigest
  Store.require (self == canonical && self.predecessor == transition.predecessor)
    (.config "long_term_version_transition_binding"
      "control binding does not identify the exact transition predecessor")

end LongTermMemoryVersionTransitionBinding

/-! ## Manifests -/

structure LongTermMemoryVersionScopeManifest where
  schemaVersion : Nat
  physicalKey : String
  memorySpaceId : String
  factualOwnerId : String
  manifestRevision : Nat
  headBindings : List LongTermMemoryVersionHeadBinding
  transitionBindings : List LongTermMemoryVersionTransitionBinding
  headCount : Nat
  materialCount : Nat
  transitionCount : Nat
  closureDigest : String
deriving DecidableEq, Repr

/-- The parts of a scope that its manifest closes over. -/
structure ScopeContents (D : Type) where
  heads : List LongTermMemoryHeadManifest
  materials : List (LongTermMemoryVersionMaterial D)
  transitions : List GovernedOwnerTransition
  transitionBindings : List LongTermMemoryVersionTransitionBinding
deriving DecidableEq, Repr

/-- Neighbours in the sorted bindings share a predecessor or a control document. -/
def bindingsRepeat (sorted : List LongTermMemoryVersionTransitionBinding) : Bool :=
  (pairs sorted).any fun pair =>
    pair.1.predecessor == pair.2.predecessor
      || pair.1.controlRevisionPhysicalKey == pair.2.controlRevisionPhysicalKey

namespace LongTermMemoryVersionScopeManifest

def build (memorySpaceId factualOwnerId : String) (manifestRevision : Nat)
    (contents : ScopeContents D) (maxRetainedRevisionsPerOwner : Nat)
    : Except Error LongTermMemoryVersionScopeManifest := do
  let failure := fun message => Error.config "long_term_version_scope_manifest" message
  let validation := validateScopeClosure digests.material memorySpaceId factualOwnerId
    contents.heads contents.materials contents.transitions maxRetainedRevisionsPerOwner
  Store.require (manifestRevision != 0 && validation.accepted)
    (failure ("scope closure rejected: " ++ showFailures validation.failures))
  let bindings ← contents.heads.mapM (LongTermMemoryVersionHeadBinding.fromHead digests)
  let headBindings := sortBy (·.ownerRef) bindings
  Store.require (!(pairs headBindings).any fun pair => pair.1.ownerRef == pair.2.ownerRef)
    (failure "scope contains duplicate head bindings")
  let transitionBindings := sortBy (·.predecessor) contents.transitionBindings
  Store.require (transitionBindings.length == contents.transitions.length
      && !bindingsRepeat transitionBindings)
    (failure "transition bindings must be an exact unique set")
  Store.require (decide (contents.transitions.map (·.predecessor)).Nodup
      && transitionBindings.all fun binding =>
        (lookup (·.predecessor) contents.transitions binding.predecessor).any fun transition =>
          (binding.validateFor transition).isOk)
    (failure "transition bindings differ from the exact transition closure")
  let physicalKey ← longTermVersionScopeManifestKey digests memorySpaceId factualOwnerId
  return {
      schemaVersion := longTermMemoryVersionSchemaVersion
      physicalKey, memorySpaceId, factualOwnerId, manifestRevision, headBindings
      transitionBindings
      headCount := contents.heads.length
      materialCount := contents.materials.length
      transitionCount := contents.transitions.length
      closureDigest := digests.closure
        { memorySpaceId, factualOwnerId, manifestRevision
          heads := sortBy (·.ownerRef) contents.heads
          materials := sortBy (·.1)
            (contents.materials.map fun material =>
              (material.ownerRevisionRef, material.contentDigest))
          transitions := sortBy (·.predecessor) contents.transitions
          headBindings, transitionBindings } }

def validateExact (self : LongTermMemoryVersionScopeManifest) (contents : ScopeContents D)
    (maxRetainedRevisionsPerOwner : Nat)
    : GovernedContractValidation :=
  let expected := build digests self.memorySpaceId self.factualOwnerId
    self.manifestRevision contents maxRetainedRevisionsPerOwner
  contractValidation
    ((validateScopeClosure digests.material self.memorySpaceId self.factualOwnerId
        contents.heads contents.materials contents.transitions
        maxRetainedRevisionsPerOwner).failures
      ++ failIf (expected.toOption != some self) .headManifestClosureMismatch)

end LongTermMemoryVersionScopeManifest

end BeetleMemory.LongTerm
