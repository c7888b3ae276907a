import BeetleMemory.LongTerm.Closure
import BeetleMemory.Lib.Chains

/-! The lineage of an updated memory: revisions that name the one before and the one after. A
report says whether they form one chain, and lists them in its order when they do.
-/

namespace BeetleMemory.LongTerm

open Store (Error)
open Keyed (lookup sameElements sortBy)

inductive MemoryPrivacyClass where
  | publicRuntime
  | sharedWithSubject
  | privateGarden
  | soulPrivate
  | operatorDiagnostic
deriving DecidableEq, Repr

inductive MemoryUpdateLineageFailure where
  | cycle
  | gap
  | scopeMismatch
  | privacyMismatch
  | depthExceeded
deriving DecidableEq, Repr

structure GovernedUpdateLineageItem where
  ownerRevisionRef : GovernedOwnerRevisionRef
  predecessor : Option GovernedOwnerRevisionRef
  successor : Option GovernedOwnerRevisionRef
  scopeDigest : String
  privacyClass : MemoryPrivacyClass
  contentDigest : String
deriving DecidableEq, Repr

structure MemoryUpdateLineageReport where
  schemaVersion : Nat
  items : List GovernedUpdateLineageItem
  failures : List MemoryUpdateLineageFailure
  manifestRevision : Nat
  maxLineageDepth : Nat
  complete : Bool
deriving DecidableEq, Repr

def governedMemoryLifecycleSchemaVersion : Nat := 1

def lineageFailureToContractFailure : MemoryUpdateLineageFailure → GovernedContractFailure
  | .cycle => .lineageCycle
  | .gap => .lineageGap
  | .scopeMismatch => .lineageScopeMismatch
  | .privacyMismatch => .lineagePrivacyMismatch
  | .depthExceeded => .lineageDepthExceeded

/-- The failure as a report names it, if a report can. -/
def reportableLineageFailure : GovernedContractFailure → Option MemoryUpdateLineageFailure
  | .lineageCycle => some .cycle
  | .lineageGap => some .gap
  | .lineageScopeMismatch => some .scopeMismatch
  | .lineagePrivacyMismatch => some .privacyMismatch
  | .lineageDepthExceeded => some .depthExceeded
  | _ => none

/-! ## Failures -/

/-- The successor that the item with a reference names. -/
def successorOf (items : List GovernedUpdateLineageItem) (reference : GovernedOwnerRevisionRef)
    : Option GovernedOwnerRevisionRef :=
  (lookup (·.ownerRevisionRef) items reference).bind (·.successor)

/-- What one item fails by itself. -/
def itemFailures (item : GovernedUpdateLineageItem) : List GovernedContractFailure :=
  failIf (!item.ownerRevisionRef.isValid) .ownerRevisionRefInvalid
    ++ failIf (!isLowercaseSha256 item.scopeDigest || !isLowercaseSha256 item.contentDigest)
      .lineageFailureMismatch
    ++ failIf (item.predecessor == some item.ownerRevisionRef
        || item.successor == some item.ownerRevisionRef)
      .lineageCycle

/-- The item that a link names has to be there, to link back, and to share scope and privacy. -/
def linkFailures (items : List GovernedUpdateLineageItem) (item : GovernedUpdateLineageItem)
    (back : GovernedUpdateLineageItem → Option GovernedOwnerRevisionRef)
    : Option GovernedOwnerRevisionRef → List GovernedContractFailure
  | none => []
  | some reference =>
      match items.find? fun candidate => candidate.ownerRevisionRef == reference with
      | none => [.lineageGap]
      | some other =>
          failIf (back other != some item.ownerRevisionRef) .lineageGap
            ++ failIf (other.scopeDigest != item.scopeDigest) .lineageScopeMismatch
            ++ failIf (other.privacyClass != item.privacyClass) .lineagePrivacyMismatch

/-- The failures as a set, in its order. Each walk along the successors passes every item at most
once, and one reference that no item has.
-/
def detectMemoryUpdateLineageFailures (items : List GovernedUpdateLineageItem)
    (maxLineageDepth : Nat)
    : List GovernedContractFailure :=
  (contractValidation
    (items.flatMap itemFailures
      ++ failIf (!decide (items.map (·.ownerRevisionRef)).Nodup) .lineageDuplicateRevision
      ++ failIf (items.any fun start =>
          Chains.revisits (successorOf items) (items.length + 2) [] (some start.ownerRevisionRef))
        .lineageCycle
      ++ failIf (maxLineageDepth < items.length) .lineageDepthExceeded
      ++ items.flatMap (fun item =>
        linkFailures items item (·.successor) item.predecessor
          ++ linkFailures items item (·.predecessor) item.successor)
      ++ failIf (!items.isEmpty && (items.countP (·.predecessor.isNone) != 1
          || items.countP (·.successor.isNone) != 1))
        .lineageGap)).failures

/-! ## Reports -/

def MemoryUpdateLineageReport.validateContract (self : MemoryUpdateLineageReport)
    : GovernedContractValidation :=
  let detected := detectMemoryUpdateLineageFailures self.items self.maxLineageDepth
  let reportable := detected.filter fun failure => (reportableLineageFailure failure).isSome
  let malformed := self.schemaVersion != governedMemoryLifecycleSchemaVersion
    || self.manifestRevision == 0 || self.maxLineageDepth == 0
  let declared := self.failures.map lineageFailureToContractFailure
  contractValidation
    (detected ++ failIf (malformed || !sameElements declared reportable
        || self.complete != reportable.isEmpty)
      .lineageFailureMismatch)

/-- The items from a cursor on along the successors. -/
def followLineage (items : List GovernedUpdateLineageItem)
    : Nat → Option GovernedOwnerRevisionRef → Except Error (List GovernedUpdateLineageItem)
  | _, none => .ok []
  -- More items than there are: the walk would not end.
  | 0, some _ =>
      .error (.config "memory_update_lineage_report"
        "complete lineage does not cover every item")
  | fuel + 1, some current =>
      match lookup (·.ownerRevisionRef) items current with
      | none =>
          .error (.config "memory_update_lineage_report" "complete lineage cursor is missing")
      | some item => do
          let rest ← followLineage items fuel item.successor
          return item :: rest

/-- Items without failures from the one without predecessor on. -/
def orderCompleteLineage (items : List GovernedUpdateLineageItem)
    : Except Error (List GovernedUpdateLineageItem) := do
  let byRef := sortBy (·.ownerRevisionRef) items
  let first := byRef.find? (·.predecessor.isNone)
  let ordered ← followLineage items (items.length + 1) (first.map (·.ownerRevisionRef))
  Store.require (ordered.length == byRef.length)
    (.config "memory_update_lineage_report" "complete lineage does not cover every item")
  return ordered

def buildMemoryUpdateLineageReport (items : List GovernedUpdateLineageItem)
    (manifestRevision maxLineageDepth : Nat)
    : Except Error MemoryUpdateLineageReport := do
  let failure := fun message => Error.config "memory_update_lineage_report" message
  Store.require (manifestRevision != 0 && maxLineageDepth != 0)
    (failure "manifest revision and request-pinned lineage depth must be positive")
  let detected := detectMemoryUpdateLineageFailures items maxLineageDepth
  let items ← if detected.isEmpty then orderCompleteLineage items
    else .ok (sortBy (·.ownerRevisionRef) items)
  Store.require (detected.all fun failure => (reportableLineageFailure failure).isSome)
    (failure "lineage items contain a non-reportable contract failure")
  let failures := detected.filterMap reportableLineageFailure
  let report : MemoryUpdateLineageReport :=
    { schemaVersion := governedMemoryLifecycleSchemaVersion
      items, failures, manifestRevision, maxLineageDepth
      complete := failures.isEmpty }
  Store.require (sameElements report.validateContract.failures detected)
    (failure "derived lineage report failed its canonical contract")
  return report

end BeetleMemory.LongTerm
