import BeetleMemory.LongTerm.Manifest
import BeetleMemory.LongTerm.Lineage

/-! The authority to recall a memory as of a time. It is granted over an exact scope closure only,
with all revisions that are linked to the selected one and the control revisions between them.
-/

namespace BeetleMemory.LongTerm

open Store (Error)
open Keyed (lookup distinctSorted)

def longTermControlRevisionNamespace : String := "long_term_control_revision"

/-- What was selected, the report on its lineage, and the documents of the lineage. -/
structure LongTermHistoricalRecallAuthority (D : Type) where
  projection : LongTermMemoryVersionReadProjection D
  lineageReport : MemoryUpdateLineageReport
  connectedMaterials : List (LongTermMemoryVersionMaterial D)
  connectedControlRevisions : List LongTermMemoryControlRevision
deriving DecidableEq, Repr

def historicalFailure (message : String) : Error :=
  .config "long_term_historical_recall_authority" message

variable {D : Type} (digests : VersionDigests D)

/-! ## Control revisions -/

/-- The material of the successor that a control revision names, if it names one. -/
def controlSuccessor (materials : List (LongTermMemoryVersionMaterial D))
    (revision : LongTermMemoryControlRevision)
    : Except Error (Option (LongTermMemoryVersionMaterial D)) :=
  match revision.transition.successor with
  | none => .ok none
  | some successor =>
      match lookup (·.ownerRevisionRef) materials successor with
      | none => .error (historicalFailure "control successor material is missing")
      | some material => .ok (some material)

/-- The binding of one control revision, whose predecessor must not have been seen before. -/
def bindControl (materials : List (LongTermMemoryVersionMaterial D))
    (seen : List GovernedOwnerRevisionRef) (revision : LongTermMemoryControlRevision)
    : Except Error LongTermMemoryVersionTransitionBinding := do
  revision.validateContract digests
  match lookup (·.ownerRevisionRef) materials revision.transition.predecessor with
  | none => .error (historicalFailure "control predecessor material is missing")
  | some predecessor =>
      let successor ← controlSuccessor materials revision
      Store.require (revision.predecessorMaterialDigest == predecessor.contentDigest
          && revision.successorMaterialDigest == successor.map (·.contentDigest)
          && (revision.transition.validateContract digests.material predecessor successor).accepted
          && !seen.contains revision.transition.predecessor)
        (historicalFailure "control revision differs from the exact material transition")
      let key ← scopedLongTermControlStorageKey digests revision.memorySpaceId
        longTermControlRevisionNamespace revision.revisionId
      LongTermMemoryVersionTransitionBinding.new revision.transition.predecessor key
        revision.contentDigest

/-- The loop over the control revisions. -/
def bindControls (materials : List (LongTermMemoryVersionMaterial D))
    : List GovernedOwnerRevisionRef → List LongTermMemoryControlRevision
      → Except Error (List LongTermMemoryVersionTransitionBinding)
  | _, [] => .ok []
  | seen, revision :: rest => do
      let binding ← bindControl digests materials seen revision
      let bindings ← bindControls materials (revision.transition.predecessor :: seen) rest
      return binding :: bindings

/-- The control revision that ends a material's revision. -/
def controlOf (controls : List LongTermMemoryControlRevision)
    (reference : GovernedOwnerRevisionRef)
    : Option LongTermMemoryControlRevision :=
  lookup (·.transition.predecessor) controls reference

/-- The successor that the control revision of a reference names. -/
def controlledSuccessor (controls : List LongTermMemoryControlRevision)
    (reference : GovernedOwnerRevisionRef)
    : Option GovernedOwnerRevisionRef :=
  (controlOf controls reference).bind (·.transition.successor)

/-! ## Search -/

/-- What a revision is linked to, if its material is there. -/
def linkedRefs (materials : List (LongTermMemoryVersionMaterial D))
    (controls : List LongTermMemoryControlRevision) (reference : GovernedOwnerRevisionRef)
    : Option (List GovernedOwnerRevisionRef) :=
  (lookup (·.ownerRevisionRef) materials reference).map fun material =>
    material.origin.predecessor.toList ++ (controlledSuccessor controls reference).toList

/-- The search from the smallest reference of the frontier on. Without steps left it has no
outcome.
-/
def searchConnected
    (linked : GovernedOwnerRevisionRef → Option (List GovernedOwnerRevisionRef))
    : Nat → List GovernedOwnerRevisionRef → List GovernedOwnerRevisionRef
      → Except Error (Option (List GovernedOwnerRevisionRef))
  | _, connected, [] => .ok (some (distinctSorted connected))
  | 0, _, _ :: _ => .ok none
  | steps + 1, connected, current :: frontier =>
      if connected.contains current then searchConnected linked steps connected frontier
      else
        match linked current with
        | none => .error (historicalFailure "connected lineage material is missing")
        | some found =>
            searchConnected linked steps (current :: connected) (distinctSorted (found ++ frontier))

/-- Each material adds at most two references to the frontier. -/
def searchSteps (materials : List (LongTermMemoryVersionMaterial D)) : Nat :=
  2 * materials.length + 1

/-- The item of a material in the lineage report. -/
def lineageItem (privacyClass : D → MemoryPrivacyClass) (scopeDigest : String)
    (controls : List LongTermMemoryControlRevision) (material : LongTermMemoryVersionMaterial D)
    : GovernedUpdateLineageItem where
  ownerRevisionRef := material.ownerRevisionRef
  predecessor := material.origin.predecessor
  successor := controlledSuccessor controls material.ownerRevisionRef
  scopeDigest := scopeDigest
  privacyClass := privacyClass material.governedContent.details
  contentDigest := material.contentDigest

/-! ## Authority -/

/-- The documents of a scope as a recall reads them. -/
structure HistoricalScope (D : Type) where
  manifest : LongTermMemoryVersionScopeManifest
  heads : List LongTermMemoryHeadManifest
  materials : List (LongTermMemoryVersionMaterial D)
  controls : List LongTermMemoryControlRevision
deriving DecidableEq, Repr

/-- The lineage around what was selected. -/
def connectLineage (privacyClass : D → MemoryPrivacyClass) (scope : HistoricalScope D)
    (projection : LongTermMemoryVersionReadProjection D) (maxLineageDepth : Nat)
    : Except Error (LongTermHistoricalRecallAuthority D) := do
  let searched ← searchConnected (linkedRefs scope.materials scope.controls)
    (searchSteps scope.materials) [] [projection.material.ownerRevisionRef]
  match searched with
  -- The loop of the source has no such bound, and is never cut off by it.
  | none => .error (historicalFailure "connected lineage search did not end")
  | some connected =>
      let connectedMaterials ← connected.mapM fun reference =>
        match lookup (·.ownerRevisionRef) scope.materials reference with
        | none => .error (historicalFailure "connected lineage material is missing")
        | some material => .ok material
      let connectedControlRevisions := connected.filterMap (controlOf scope.controls)
      let items := connectedMaterials.map
        (lineageItem privacyClass scope.manifest.closureDigest scope.controls)
      let lineageReport ←
        buildMemoryUpdateLineageReport items scope.manifest.manifestRevision maxLineageDepth
      Store.require lineageReport.complete
        (historicalFailure "historical lineage is incomplete or crosses a governed boundary")
      return { projection, lineageReport, connectedMaterials, connectedControlRevisions }

def buildLongTermHistoricalRecallAuthority (privacyClass : D → MemoryPrivacyClass)
    (scope : HistoricalScope D) (selectedOwnerRef : GovernedMemoryOwnerRef)
    (asOfTime maxRetainedRevisionsPerOwner maxLineageDepth : Nat)
    : Except Error (Option (LongTermHistoricalRecallAuthority D)) := do
  Store.require (selectedOwnerRef.ownerPlane == .longTerm && selectedOwnerRef.isValid
      && maxLineageDepth != 0)
    (historicalFailure "canonical long-term owner and positive lineage depth are required")
  Store.require (decide (scope.materials.map (·.ownerRevisionRef)).Nodup)
    (historicalFailure "scope contains duplicate material revisions")
  let transitionBindings ← bindControls digests scope.materials [] scope.controls
  let transitions := scope.controls.map (·.transition)
  let contents : ScopeContents D :=
    { heads := scope.heads, materials := scope.materials, transitions, transitionBindings }
  Store.require
    (scope.manifest.validateExact digests contents maxRetainedRevisionsPerOwner).accepted
    (historicalFailure "scope manifest does not bind the exact historical closure")
  match scope.heads.find? fun head => head.ownerRef == selectedOwnerRef with
  | none => return none
  | some head =>
      let selected ← selectLongTermVersionAsOf digests.material head scope.materials transitions
        asOfTime maxRetainedRevisionsPerOwner
      match selected with
      | none => return none
      | some projection =>
          let authority ← connectLineage privacyClass scope projection maxLineageDepth
          return some authority

end BeetleMemory.LongTerm
