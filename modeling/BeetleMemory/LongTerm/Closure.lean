import BeetleMemory.LongTerm.Material
import BeetleMemory.Lib.Keyed

/-! Transitions between owner revisions, the heads that name each owner's current revision, and
the validation of a whole scope: its heads, materials and transitions have to close over each
other. The selections read one owner of such a scope, now or as of a time.
-/

namespace BeetleMemory.LongTerm

open Store (Error)
open Keyed (lookup sameElements sortBy)

/-! ## Transitions -/

inductive GovernedOwnerTermination where
  | revised
  | corrected
  | superseded
  | invalidated
  | deleted
  | forgotten
deriving DecidableEq, Repr

structure GovernedOwnerTransition where
  predecessor : GovernedOwnerRevisionRef
  terminatedAt : Nat
  termination : GovernedOwnerTermination
  successor : Option GovernedOwnerRevisionRef
deriving DecidableEq, Repr

/-- The successor is the next revision of the same owner. -/
def exactSuccessor (current : GovernedOwnerRevisionRef)
    (successor : Option GovernedOwnerRevisionRef)
    : Bool :=
  successor.any fun successor =>
    successor.ownerRef == current.ownerRef
      && checkedNext current.ownerRevision == some successor.ownerRevision

/-- The successor is the first revision of another owner on the same plane. -/
def crossOwnerSuccessor (current : GovernedOwnerRevisionRef)
    (successor : Option GovernedOwnerRevisionRef)
    : Bool :=
  successor.any fun successor =>
    successor.ownerRef.ownerPlane == current.ownerRef.ownerPlane
      && successor.ownerRef.ownerId != current.ownerRef.ownerId
      && successor.ownerRevision == 1

section Materials

variable {D : Type} (digest : LongTermMemoryVersionDigestInput D → String)

/-- The successor a transition names and the material found for it disagree. -/
def GovernedOwnerTransition.successorFailures (self : GovernedOwnerTransition)
    (predecessorMaterial : LongTermMemoryVersionMaterial D)
    : Option (LongTermMemoryVersionMaterial D) → List GovernedContractFailure
  | none => failIf self.successor.isSome .validitySuccessorMismatch
  | some successor =>
      match self.successor with
      | none => [.validitySuccessorMismatch]
      | some successorRef =>
          (successor.validateContract digest).failures
            ++ failIf (successor.ownerRevisionRef != successorRef
                || successor.memorySpaceId != predecessorMaterial.memorySpaceId
                || successor.factualOwnerId != predecessorMaterial.factualOwnerId
                || successor.origin.predecessor != some self.predecessor
                || successor.origin.validFrom != self.terminatedAt)
              .validitySuccessorMismatch

/-- What the kind of termination asks of the successor. -/
def GovernedOwnerTransition.terminationFailures (self : GovernedOwnerTransition)
    (successorMaterial : Option (LongTermMemoryVersionMaterial D))
    : List GovernedContractFailure :=
  match self.termination with
  | .revised | .corrected =>
      failIf (!exactSuccessor self.predecessor self.successor) .validitySuccessorMismatch
  | .superseded =>
      failIf (!crossOwnerSuccessor self.predecessor self.successor) .validitySuccessorMismatch
  | .invalidated | .deleted | .forgotten =>
      failIf (self.successor.isSome || successorMaterial.isSome) .validitySuccessorMismatch

def GovernedOwnerTransition.validateContract (self : GovernedOwnerTransition)
    (predecessorMaterial : LongTermMemoryVersionMaterial D)
    (successorMaterial : Option (LongTermMemoryVersionMaterial D))
    : GovernedContractValidation :=
  contractValidation
    ((predecessorMaterial.validateContract digest).failures
      ++ failIf (!self.predecessor.isValid
          || self.predecessor != predecessorMaterial.ownerRevisionRef)
        .ownerRevisionRefInvalid
      ++ failIf (self.terminatedAt ≤ predecessorMaterial.origin.validFrom)
        .validityIntervalInvalid
      ++ failIf (self.successor.any (!·.isValid)) .ownerRevisionRefInvalid
      ++ self.successorFailures digest predecessorMaterial successorMaterial
      ++ self.terminationFailures successorMaterial)

/-! ## Validity of one revision -/

structure GovernedOwnerValidity where
  validFrom : Nat
  validUntil : Option Nat
  observedAt : Nat
  predecessor : Option GovernedOwnerRevisionRef
  successor : Option GovernedOwnerRevisionRef
  termination : Option GovernedOwnerTermination
deriving DecidableEq, Repr

def GovernedOwnerValidity.terminationFailures (self : GovernedOwnerValidity)
    (current : GovernedOwnerRevisionRef)
    : List GovernedContractFailure :=
  match self.termination with
  | none =>
      failIf (self.validUntil.isSome || self.successor.isSome) .validityTerminationMismatch
  | some termination =>
      failIf self.validUntil.isNone .validityTerminationMismatch
        ++ match termination with
          | .revised | .corrected =>
              failIf (!exactSuccessor current self.successor) .validitySuccessorMismatch
          | .superseded =>
              failIf (!crossOwnerSuccessor current self.successor) .validitySuccessorMismatch
          | .invalidated | .deleted | .forgotten =>
              failIf self.successor.isSome .validitySuccessorMismatch

def GovernedOwnerValidity.validateFor (self : GovernedOwnerValidity)
    (current : GovernedOwnerRevisionRef)
    : GovernedContractValidation :=
  contractValidation
    (failIf (!current.isValid || self.predecessor.any (!·.isValid)
          || self.successor.any (!·.isValid))
        .ownerRevisionRefInvalid
      ++ failIf (self.validUntil.any fun validUntil => validUntil ≤ self.validFrom)
        .validityIntervalInvalid
      ++ failIf (self.predecessor == some current || self.successor == some current)
        .validitySelfLoop
      ++ self.terminationFailures current)

def projectLongTermOwnerValidity (material : LongTermMemoryVersionMaterial D)
    (transition : Option GovernedOwnerTransition)
    (successorMaterial : Option (LongTermMemoryVersionMaterial D))
    : Except Error GovernedOwnerValidity := do
  let failure := fun message => Error.config "long_term_owner_validity" message
  Store.require (material.validateContract digest).accepted (failure "owner material is invalid")
  match transition with
  | some transition =>
      Store.require (transition.validateContract digest material successorMaterial).accepted
        (failure "owner transition differs from the immutable material closure")
  | none =>
      Store.require successorMaterial.isNone
        (failure "successor material requires an owner transition")
  let validity : GovernedOwnerValidity :=
    { validFrom := material.origin.validFrom
      validUntil := transition.map (·.terminatedAt)
      observedAt := material.origin.observedAt
      predecessor := material.origin.predecessor
      successor := transition.bind (·.successor)
      termination := transition.map (·.termination) }
  Store.require (validity.validateFor material.ownerRevisionRef).accepted
    (failure "projected owner validity is invalid")
  return validity

/-! ## Heads -/

structure LongTermMemoryRetainedRevisionDigest where
  ownerRevision : Nat
  contentDigest : String
deriving DecidableEq, Repr

structure LongTermMemoryHeadManifest where
  schemaVersion : Nat
  memorySpaceId : String
  factualOwnerId : String
  ownerRef : GovernedMemoryOwnerRef
  currentRevision : Nat
  retainedRevisionDigests : List LongTermMemoryRetainedRevisionDigest
  terminalTransitionRef : Option GovernedOwnerRevisionRef
  manifestRevision : Nat
deriving DecidableEq, Repr

def LongTermMemoryHeadManifest.validateContract (self : LongTermMemoryHeadManifest)
    : GovernedContractValidation :=
  let revisions := self.retainedRevisionDigests.map (·.ownerRevision)
  contractValidation
    (failIf (self.schemaVersion != longTermMemoryVersionSchemaVersion
          || notCanonical self.memorySpaceId || notCanonical self.factualOwnerId
          || self.factualOwnerId != self.memorySpaceId
          || self.ownerRef.ownerPlane != .longTerm || !self.ownerRef.isValid
          || self.currentRevision == 0 || self.manifestRevision == 0)
        .ownerRevisionRefInvalid
      ++ failIf (revisions.dedup.length != revisions.length
          || self.retainedRevisionDigests.any (fun entry =>
            entry.ownerRevision == 0 || !isLowercaseSha256 entry.contentDigest)
          || !revisions.contains self.currentRevision)
        .headManifestClosureMismatch
      ++ failIf (revisions.getLast? != some self.currentRevision
          || (pairs revisions).any (fun pair => pair.2 ≤ pair.1)
          || self.terminalTransitionRef.any (fun reference =>
            !reference.isValid || reference.ownerRef != self.ownerRef
              || reference.ownerRevision != self.currentRevision))
        .headManifestClosureMismatch)

def LongTermMemoryVersionMaterial.retainedDigest (self : LongTermMemoryVersionMaterial D)
    : LongTermMemoryRetainedRevisionDigest :=
  ⟨self.ownerRevision, self.contentDigest⟩

/-- The materials of one owner. -/
def ownerMaterials (owner : GovernedMemoryOwnerRef)
    (materials : List (LongTermMemoryVersionMaterial D))
    : List (LongTermMemoryVersionMaterial D) :=
  materials.filter fun material => material.ownerRef = owner

/-! ## Reading one owner -/

structure LongTermMemoryVersionReadProjection (D : Type) where
  material : LongTermMemoryVersionMaterial D
  validity : GovernedOwnerValidity
deriving DecidableEq, Repr

/-- The material found for the successor that a transition names. -/
def successorMaterial (materials : List (LongTermMemoryVersionMaterial D))
    (transition : GovernedOwnerTransition)
    : Option (LongTermMemoryVersionMaterial D) :=
  transition.successor.bind (lookup (·.ownerRevisionRef) materials)

/-- The transition that ends a revision. -/
def transitionOf (transitions : List GovernedOwnerTransition)
    (material : LongTermMemoryVersionMaterial D)
    : Option GovernedOwnerTransition :=
  lookup (·.predecessor) transitions material.ownerRevisionRef

/-- The validity of one retained revision, which must have a transition exactly when it is not
current or its head is terminal.
-/
def retainedValidity (head : LongTermMemoryHeadManifest)
    (materials : List (LongTermMemoryVersionMaterial D))
    (transitions : List GovernedOwnerTransition) (material : LongTermMemoryVersionMaterial D)
    : Except Error GovernedOwnerValidity := do
  let transition := transitionOf transitions material
  let transitionRequired := material.ownerRevision != head.currentRevision
    || head.terminalTransitionRef == some material.ownerRevisionRef
  Store.require (transition.isSome == transitionRequired)
    (.config "long_term_version_as_of_read"
      "material transition presence differs from the pinned head")
  projectLongTermOwnerValidity digest material transition
    (transition.bind (successorMaterial materials))

def GovernedOwnerValidity.contains (self : GovernedOwnerValidity) (time : Nat) : Bool :=
  self.validFrom ≤ time && self.validUntil.all fun validUntil => time < validUntil

/-- The loop over an owner's materials, with what is selected so far. -/
def selectContaining (validity : LongTermMemoryVersionMaterial D → Except Error GovernedOwnerValidity)
    (asOfTime : Nat)
    : Option (LongTermMemoryVersionReadProjection D) → List (LongTermMemoryVersionMaterial D)
      → Except Error (Option (LongTermMemoryVersionReadProjection D))
  | selected, [] => .ok selected
  | selected, material :: rest => do
      let found ← validity material
      if found.contains asOfTime then
        if selected.isSome then
          .error (.config "long_term_version_as_of_read"
            "multiple retained materials overlap the as-of time")
        else selectContaining validity asOfTime (some ⟨material, found⟩) rest
      else selectContaining validity asOfTime selected rest

def selectLongTermVersionAsOf (head : LongTermMemoryHeadManifest)
    (materials : List (LongTermMemoryVersionMaterial D))
    (transitions : List GovernedOwnerTransition) (asOfTime maxRetainedRevisionsPerOwner : Nat)
    : Except Error (Option (LongTermMemoryVersionReadProjection D)) := do
  let failure := fun message => Error.config "long_term_version_as_of_read" message
  let owned := ownerMaterials head.ownerRef materials
  Store.require (head.validateContract.accepted && maxRetainedRevisionsPerOwner != 0)
    (failure "head contract or request-pinned retention limit is invalid")
  Store.require (owned.length ≤ maxRetainedRevisionsPerOwner
      && sameElements (owned.map (·.retainedDigest)) head.retainedRevisionDigests)
    (failure "retained material set differs from the exact head closure")
  Store.require (decide (materials.map (·.ownerRevisionRef)).Nodup)
    (failure "duplicate material revision")
  Store.require (decide (transitions.map (·.predecessor)).Nodup)
    (failure "duplicate predecessor transition")
  selectContaining (retainedValidity digest head materials transitions) asOfTime none owned

def selectLongTermVersionCurrent (head : LongTermMemoryHeadManifest)
    (materials : List (LongTermMemoryVersionMaterial D))
    (transitions : List GovernedOwnerTransition) (maxRetainedRevisionsPerOwner : Nat)
    : Except Error (LongTermMemoryVersionReadProjection D) := do
  let failure := fun message => Error.config "long_term_version_current_read" message
  Store.require (head.validateContract.accepted && maxRetainedRevisionsPerOwner != 0)
    (failure "head contract or request-pinned retention limit is invalid")
  let current := materials.find? fun material =>
    material.ownerRef == head.ownerRef && material.ownerRevision == head.currentRevision
  match current with
  | none => .error (failure "current material is missing from the exact head closure")
  | some material =>
      let selected ← selectLongTermVersionAsOf digest head materials transitions
        material.origin.validFrom maxRetainedRevisionsPerOwner
      match selected with
      | none =>
          .error (failure "current material validity does not contain its own valid-from time")
      | some projection =>
          Store.require (projection.material.ownerRevisionRef == material.ownerRevisionRef)
            (failure "as-of closure selected a different current material")
          return projection

/-! ## Closure of a scope -/

/-- The loop that inserts items into a map by key. An item outside is not inserted, and an item
whose key is already there is a failure, as is an item outside.
-/
def insertionFailures {α κ : Type} [DecidableEq κ] (own : α → List GovernedContractFailure)
    (inside : α → Bool) (key : α → κ)
    : List κ → List α → List GovernedContractFailure
  | _, [] => []
  | seen, item :: rest =>
      own item
        ++ failIf (!inside item || seen.contains (key item)) .headManifestClosureMismatch
        ++ insertionFailures own inside key
          (if inside item then key item :: seen else seen) rest

/-- The head belongs to the scope and is within the retention limit. -/
def headInScope (memorySpaceId factualOwnerId : String) (maxRetainedRevisionsPerOwner : Nat)
    (head : LongTermMemoryHeadManifest)
    : Bool :=
  head.memorySpaceId == memorySpaceId && head.factualOwnerId == factualOwnerId
    && head.retainedRevisionDigests.length ≤ maxRetainedRevisionsPerOwner

def headFailures (memorySpaceId factualOwnerId : String) (maxRetainedRevisionsPerOwner : Nat)
    (heads : List LongTermMemoryHeadManifest)
    : List GovernedContractFailure :=
  insertionFailures (·.validateContract.failures)
    (headInScope memorySpaceId factualOwnerId maxRetainedRevisionsPerOwner) (·.ownerRef) [] heads

/-- The material belongs to the scope. -/
def inScope (memorySpaceId factualOwnerId : String) (material : LongTermMemoryVersionMaterial D)
    : Bool :=
  material.memorySpaceId == memorySpaceId && material.factualOwnerId == factualOwnerId

def materialFailures (memorySpaceId factualOwnerId : String)
    (materials : List (LongTermMemoryVersionMaterial D))
    : List GovernedContractFailure :=
  insertionFailures (fun material => (material.validateContract digest).failures)
    (inScope memorySpaceId factualOwnerId) (·.ownerRevisionRef) [] materials

def transitionFailures (transitions : List GovernedOwnerTransition)
    : List GovernedContractFailure :=
  insertionFailures (fun _ => []) (·.predecessor.isValid) (·.predecessor) [] transitions

/-- Each head lists exactly the digests of its owner's materials. The digests are taken out of
the collection by the first head of an owner.
-/
def retainedFailures (materials : List (LongTermMemoryVersionMaterial D))
    : List GovernedMemoryOwnerRef → List LongTermMemoryHeadManifest
      → List GovernedContractFailure
  | taken, [] =>
      failIf (materials.any fun material => !taken.contains material.ownerRef)
        .headManifestClosureMismatch
  | taken, head :: rest =>
      let actual := if taken.contains head.ownerRef then []
        else (ownerMaterials head.ownerRef materials).map (·.retainedDigest)
      failIf (!sameElements head.retainedRevisionDigests actual) .headManifestClosureMismatch
        ++ retainedFailures materials (head.ownerRef :: taken) rest

/-- The retained materials of a head's owner by revision. -/
def retainedMaterials (materials : List (LongTermMemoryVersionMaterial D))
    (owner : GovernedMemoryOwnerRef)
    : List (LongTermMemoryVersionMaterial D) :=
  sortBy (·.ownerRevision) (ownerMaterials owner materials)

/-- Retained revisions follow each other without a gap. -/
def lineageGaps (retained : List (LongTermMemoryVersionMaterial D))
    : List GovernedContractFailure :=
  (pairs retained).flatMap fun pair =>
    failIf (checkedNext pair.1.ownerRevision != some pair.2.ownerRevision) .lineageGap

/-- The revisions of an owner that must have a transition. -/
def expectedPredecessors (materials : List (LongTermMemoryVersionMaterial D))
    (head : LongTermMemoryHeadManifest)
    : List GovernedOwnerRevisionRef :=
  (pairs (retainedMaterials materials head.ownerRef)).map (fun pair => pair.1.ownerRevisionRef)
    ++ head.terminalTransitionRef.toList

/-- The transition of one expected predecessor fits the materials around it. -/
def boundFailures (materials : List (LongTermMemoryVersionMaterial D))
    (transitions : List GovernedOwnerTransition) (predecessor : GovernedOwnerRevisionRef)
    : List GovernedContractFailure :=
  match lookup (·.ownerRevisionRef) materials predecessor,
      lookup (·.predecessor) transitions predecessor with
  | some predecessorMaterial, some transition =>
      (transition.validateContract digest predecessorMaterial
        (successorMaterial materials transition)).failures
  | _, _ => [.headManifestClosureMismatch]

def validateScopeClosure (memorySpaceId factualOwnerId : String)
    (heads : List LongTermMemoryHeadManifest)
    (materials : List (LongTermMemoryVersionMaterial D))
    (transitions : List GovernedOwnerTransition) (maxRetainedRevisionsPerOwner : Nat)
    : GovernedContractValidation :=
  let materialsByRef := materials.filter (inScope memorySpaceId factualOwnerId)
  let transitionsByPredecessor := transitions.filter (·.predecessor.isValid)
  let expected := heads.flatMap (expectedPredecessors materials)
  contractValidation
    (failIf (notCanonical memorySpaceId || notCanonical factualOwnerId
          || factualOwnerId != memorySpaceId || maxRetainedRevisionsPerOwner == 0)
        .headManifestClosureMismatch
      ++ headFailures memorySpaceId factualOwnerId maxRetainedRevisionsPerOwner heads
      ++ failIf (2 ^ 64 ≤ heads.length * maxRetainedRevisionsPerOwner
          || heads.length * maxRetainedRevisionsPerOwner < materials.length)
        .headManifestClosureMismatch
      ++ materialFailures digest memorySpaceId factualOwnerId materials
      ++ retainedFailures materials [] heads
      ++ transitionFailures transitions
      ++ heads.flatMap (fun head => lineageGaps (retainedMaterials materials head.ownerRef))
      ++ failIf (!sameElements expected (transitionsByPredecessor.map (·.predecessor)))
        .headManifestClosureMismatch
      ++ expected.flatMap (boundFailures digest materialsByRef transitionsByPredecessor))

end Materials

end BeetleMemory.LongTerm
