import BeetleMemory.LongTerm.Closure

/-! Control of long-term memories: the intent to change an owner, the control revision that
records the change, and the binding of a creation or a change to the materials it produces.
-/

namespace BeetleMemory.LongTerm

open Store (Error trimIsEmpty)

/-! ## Operations and intents -/

inductive LongTermControlOperation where
  | refresh
  | correct
  | supersede
  | invalidate
  | delete
  | forgetByQuery
  | markStale
  | changeScope
  | changePrivacy
  | policySuppress
  | policyPause
  | policyResume
  | policyRemoveSuppression
deriving DecidableEq, Repr

inductive LongTermInvalidationReasonCode where
  | factuallyIncorrect
  | sourceAuthorityRevoked
  | contradictedByGovernedEvidence
  | integrityViolation
deriving DecidableEq, Repr

/-- The authority for a transition. -/
inductive LongTermTransitionBasis where
  | explicitControl
  | sourceGoverned (authoritativeSources : List TranscriptEvidenceRef)
deriving DecidableEq, Repr

def LongTermTransitionBasis.validate (self : LongTermTransitionBasis) (space : String)
    (operation : LongTermControlOperation)
    : Except Error Unit :=
  match self with
  | .explicitControl =>
      if operation = .refresh then
        .error (.config "long_term_transition_basis"
          "ordinary refresh cannot claim explicit control")
      else .ok ()
  | .sourceGoverned authoritativeSources =>
      if (operation != .refresh && operation != .delete)
          || authoritativeSources.any (fun source =>
            source.memorySpaceId != space
              || source.subjectId.all (fun id => id.isEmpty || trim id != id)
              || (TranscriptEvidenceRef.parseDisplayCitation source.displayCitation).isNone)
          || (pairs authoritativeSources).any (fun pair =>
            decide (pair.2.displayCitation ≤ pair.1.displayCitation)) then
        .error (.config "long_term_transition_basis"
          "noncanonical factual transition authority")
      else .ok ()

/-! ## Control revisions -/

def longTermControlSchemaVersion : Nat := 4

/-- Everything the digest of a control revision covers. -/
structure LongTermMemoryControlDigestInput where
  schemaVersion : Nat
  revisionId : String
  memorySpaceId : String
  factualOwnerId : String
  operation : LongTermControlOperation
  basis : LongTermTransitionBasis
  invalidationReasonCode : Option LongTermInvalidationReasonCode
  transition : GovernedOwnerTransition
  predecessorMaterialDigest : String
  successorMaterialDigest : Option String
  governedEvidenceRefs : List GovernedOwnerRevisionRef
  reason : String
  actorSubjectId : Option String
  createdAt : Nat
deriving DecidableEq, Repr

structure LongTermMemoryControlRevision extends LongTermMemoryControlDigestInput where
  contentDigest : String
deriving DecidableEq, Repr

/-- What a control event did, in the order effects are sorted in. -/
inductive ControlEffectRef where
  | revision (revisionId : String) (transition : GovernedOwnerTransition)
      (factualOwnerId : String)
  | tombstone (tombstoneId recordId factualOwnerId : String) (ownerRevision : Nat)
      (sourceRevision : Option Nat)
deriving DecidableEq, Repr

structure LongTermMemoryControlAuditEvent where
  schemaVersion : Nat
  eventId : String
  transactionId : String
  operation : LongTermControlOperation
  effects : List ControlEffectRef
  reason : String
  factualOwnerId : String
  actorSubjectId : Option String
  memorySpaceId : Option String
  createdAt : Nat
deriving DecidableEq, Repr

/-- What the manifest of a scope records of one head. -/
structure LongTermMemoryVersionHeadBinding where
  ownerRef : GovernedMemoryOwnerRef
  headPhysicalKey : String
  headContentDigest : String
  headManifestRevision : Nat
deriving DecidableEq, Repr

/-- What the manifest of a scope records of one transition. -/
structure LongTermMemoryVersionTransitionBinding where
  predecessor : GovernedOwnerRevisionRef
  controlRevisionPhysicalKey : String
  controlRevisionContentDigest : String
deriving DecidableEq, Repr

/-- Everything the digest of a scope's closure covers. -/
structure ScopeClosureDigestInput where
  memorySpaceId : String
  factualOwnerId : String
  manifestRevision : Nat
  heads : List LongTermMemoryHeadManifest
  materials : List (GovernedOwnerRevisionRef × String)
  transitions : List GovernedOwnerTransition
  headBindings : List LongTermMemoryVersionHeadBinding
  transitionBindings : List LongTermMemoryVersionTransitionBinding
deriving DecidableEq, Repr

/-- The hash functions of the version store: hexadecimal SHA-256 of the encoded values. -/
structure VersionDigests (D : Type) where
  material : LongTermMemoryVersionDigestInput D → String
  control : LongTermMemoryControlDigestInput → String
  tombstone : LongTermControlOperation → GovernedOwnerRevisionRef → String → String → Nat → String
  audit : LongTermMemoryControlAuditEvent → String
  head : LongTermMemoryHeadManifest → String
  closure : ScopeClosureDigestInput → String
  text : String → List String → String
  material_hex : ∀ input, isLowercaseSha256 (material input) = true
  control_hex : ∀ input, isLowercaseSha256 (control input) = true
  tombstone_hex : ∀ operation reference digest revisionId time,
    isLowercaseSha256 (tombstone operation reference digest revisionId time) = true
  text_hex : ∀ domain fields, isLowercaseSha256 (text domain fields) = true

variable {D : Type} (digests : VersionDigests D)

def LongTermMemoryControlRevision.validateContract (self : LongTermMemoryControlRevision)
    : Except Error Unit := do
  self.basis.validate self.memorySpaceId self.operation
  if self.schemaVersion != longTermControlSchemaVersion || trimIsEmpty self.revisionId
      || trimIsEmpty self.memorySpaceId || trimIsEmpty self.factualOwnerId
      || self.factualOwnerId != self.memorySpaceId || trimIsEmpty self.reason
      || self.createdAt == 0 || decide (self.transition.terminatedAt < self.createdAt)
      || (self.operation == .invalidate) != self.invalidationReasonCode.isSome
      || !isLowercaseSha256 self.predecessorMaterialDigest
      || self.successorMaterialDigest.any (!isLowercaseSha256 ·)
      || self.transition.successor.isSome != self.successorMaterialDigest.isSome
      || (pairs self.governedEvidenceRefs).any (fun pair => decide (pair.2 ≤ pair.1))
      || digests.control self.toLongTermMemoryControlDigestInput != self.contentDigest then
    .error (.config "long_term_control_revision" "typed control revision contract is invalid")
  else .ok ()

end BeetleMemory.LongTerm
