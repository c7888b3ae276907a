import BeetleMemory.Graph.Expansion

/-! The plan that makes a graph persistent: memberships of nodes, edges and backlinks, one recall
index for each owner, a revision and a manifest, all tied together by digests. Maps and sets of the
source are sorted lists here, with the last value under a key.
-/

namespace BeetleMemory.Graph

open LongTerm (trim GovernedMemoryOwnerRef)
open Keyed (lookup sortBy)

variable (tables : TextTables)

/-- The distinct texts in increasing order. -/
def sortDedup (texts : List String) : List String :=
  (texts.insertionSort (· ≤ ·)).destutter (· ≠ ·)

/-! ## Documents -/

def memoryGraphSchemaVersion : Nat := 4

structure MemoryGraphDependencyRef where
  storageKey : String
  dependencyDigest : String
deriving DecidableEq, Repr

/-- The fields by which every stored graph document is bound to its scope. -/
structure MemoryGraphScopeBinding where
  schemaVersion : Nat
  memorySpaceId : String
  mountedSubjectId : String
  scopeDigest : String
  manifestGeneration : Nat
  graphRevision : String
deriving DecidableEq, Repr

structure MemoryGraphScopeManifest extends MemoryGraphScopeBinding where
  nodeCount : Nat
  edgeCount : Nat
  backlinkCount : Nat
  indexCount : Nat
  nodeMemberships : List MemoryGraphDependencyRef
  edgeMemberships : List MemoryGraphDependencyRef
  backlinkMemberships : List MemoryGraphDependencyRef
  recallIndexes : List MemoryGraphDependencyRef
  revision : MemoryGraphDependencyRef
  dependencyDigest : String
deriving DecidableEq, Repr

structure MemoryGraphNodeMembership extends MemoryGraphScopeBinding where
  membershipKey : String
  nodeId : String
  documentKey : String
  documentDigest : String
  ownerRef : GovernedMemoryOwnerRef
  ownerRevision : Nat
  indexKey : String
  backlinkMembershipKeys : List String
  dependencyDigest : String
deriving DecidableEq, Repr

structure MemoryGraphEdgeMembership extends MemoryGraphScopeBinding where
  membershipKey : String
  edgeId : String
  documentKey : String
  documentDigest : String
  fromNodeMembershipKey : String
  toNodeMembershipKey : String
  backlinkMembershipKeys : List String
  dependencyDigest : String
deriving DecidableEq, Repr

structure MemoryGraphBacklinkMembership extends MemoryGraphScopeBinding where
  membershipKey : String
  backlinkKey : String
  documentKey : String
  documentDigest : String
  nodeMembershipKeys : List String
  edgeMembershipKeys : List String
  indexKeys : List String
  dependencyDigest : String
deriving DecidableEq, Repr

structure MemoryGraphRevisionDoc extends MemoryGraphScopeBinding where
  revisionKey : String
  nodeCount : Nat
  edgeCount : Nat
  backlinkCount : Nat
  indexCount : Nat
  dependencyDigest : String
deriving DecidableEq, Repr

structure MemoryGraphRecallIndexDoc extends MemoryGraphScopeBinding where
  owner : String
  indexId : String
  indexKey : String
  ownerRef : GovernedMemoryOwnerRef
  ownerCandidateId : String
  ownerRevision : Nat
  sourceAnchorNodeIds : List String
  nodeMemberships : List MemoryGraphDependencyRef
  edgeMemberships : List MemoryGraphDependencyRef
  backlinkMemberships : List MemoryGraphDependencyRef
  nodeCount : Nat
  edgeCount : Nat
  backlinkCount : Nat
  dependencyDigest : String
deriving DecidableEq, Repr

structure MemoryGraphOwnerBinding where
  nodeId : String
  ownerRef : GovernedMemoryOwnerRef
  ownerRevision : Nat
  visible : Bool
deriving DecidableEq, Repr

/-- What the revision of a graph is computed from. -/
structure GraphRevisionInput where
  schemaVersion : Nat
  scopeDigest : String
  manifestGeneration : Nat
  nodes : List MemoryGraphNode
  edges : List MemoryGraphEdge
  backlinks : List EvidenceBacklink
  owners : List MemoryGraphOwnerBinding
deriving DecidableEq, Repr

structure MemoryGraphPersistencePlan where
  accepted : Bool := false
  failures : List String := []
  scopeManifest : Option MemoryGraphScopeManifest := none
  revision : Option MemoryGraphRevisionDoc := none
  nodeMemberships : List MemoryGraphNodeMembership := []
  edgeMemberships : List MemoryGraphEdgeMembership := []
  backlinkMemberships : List MemoryGraphBacklinkMembership := []
  recallIndexes : List MemoryGraphRecallIndexDoc := []
deriving DecidableEq, Repr

/-! ## Digests and keys -/

/-- The hash of a list of parts in a domain, as hexadecimal digits, and the JSON texts of the
documents.
-/
structure GraphCodec where
  sha256 : String → List String → String
  nodeText : MemoryGraphNode → String
  edgeText : MemoryGraphEdge → String
  backlinkText : EvidenceBacklink → String
  nodeMembershipText : MemoryGraphNodeMembership → String
  edgeMembershipText : MemoryGraphEdgeMembership → String
  backlinkMembershipText : MemoryGraphBacklinkMembership → String
  recallIndexText : MemoryGraphRecallIndexDoc → String
  revisionText : MemoryGraphRevisionDoc → String
  manifestText : MemoryGraphScopeManifest → String
  revisionInputText : GraphRevisionInput → String

variable (codec : GraphCodec)

def memoryGraphSha256 (domain : String) (parts : List String) : String :=
  "sha256:" ++ codec.sha256 domain parts

def memoryGraphSerializedDigest (text : String) : String :=
  memoryGraphSha256 codec "memory_graph_serialized_dependency_v4" [text]

def memoryGraphNodeMembershipDigest (membership : MemoryGraphNodeMembership) : String :=
  memoryGraphSerializedDigest codec
    (codec.nodeMembershipText { membership with dependencyDigest := "" })

def memoryGraphEdgeMembershipDigest (membership : MemoryGraphEdgeMembership) : String :=
  memoryGraphSerializedDigest codec
    (codec.edgeMembershipText { membership with dependencyDigest := "" })

def memoryGraphBacklinkMembershipDigest (membership : MemoryGraphBacklinkMembership) : String :=
  memoryGraphSerializedDigest codec
    (codec.backlinkMembershipText { membership with dependencyDigest := "" })

def memoryGraphRecallIndexDigest (index : MemoryGraphRecallIndexDoc) : String :=
  memoryGraphSerializedDigest codec
    (codec.recallIndexText { index with dependencyDigest := "" })

def memoryGraphRevisionDigest (revision : MemoryGraphRevisionDoc) : String :=
  memoryGraphSerializedDigest codec
    (codec.revisionText { revision with dependencyDigest := "" })

def memoryGraphManifestDigest (manifest : MemoryGraphScopeManifest) : String :=
  memoryGraphSerializedDigest codec
    (codec.manifestText { manifest with dependencyDigest := "" })

def memoryGraphBacklinkKey (backlink : EvidenceBacklink) : String :=
  memoryGraphSha256 codec "memory_graph_backlink_key_v4"
    [trim backlink.sourceKind, trim backlink.sourceId]

def memoryGraphScopeDigest (memorySpaceId mountedSubjectId : String) : String :=
  memoryGraphSha256 codec "memory_graph_scope_v4"
    [toString memoryGraphSchemaVersion, trim memorySpaceId, trim mountedSubjectId]

def scopedMemoryGraphStorageKey (memorySpaceId mountedSubjectId logicalKey : String) : String :=
  "scope:" ++ memoryGraphScopeDigest codec memorySpaceId mountedSubjectId ++ ":doc:"
    ++ memoryGraphSha256 codec "memory_graph_storage_key_v4" [trim logicalKey]

def governedMemoryRecallCandidateId (ownerRef : GovernedMemoryOwnerRef) : String :=
  "owner:" ++ ownerRef.ownerPlane.asStr ++ ":"
    ++ codec.sha256 "governed_memory_recall_candidate_id_v1"
      [ownerRef.ownerPlane.asStr, ownerRef.ownerId]

def memoryGraphRecallIndexKey (memorySpaceId mountedSubjectId ownerCandidateId : String)
    : String :=
  scopedMemoryGraphStorageKey codec memorySpaceId mountedSubjectId
    ("graph_index:" ++ ownerCandidateId)

/-! ## Acceptance -/

/-- The failure when the condition holds. -/
def failWhen (condition : Bool) (failure : String) : List String :=
  if condition then [failure] else []

/-- One failure for each value that came before. -/
def duplicateFailures (failure : String) : List String → List String → List String
  | _, [] => []
  | seen, value :: rest =>
      failWhen (seen.contains value) failure ++ duplicateFailures failure (value :: seen) rest

def temporalMemoryGraphWriteGate (graph : TemporalMemoryGraph) : List String :=
  let validBacklinkSources :=
    (graph.backlinks.filter fun backlink => !backlink.fingerprint.isEmpty).map (·.sourceId)
  let nodeIds := graph.nodes.map (·.nodeId)
  failWhen graph.nodes.isEmpty "memory_graph_nodes_empty"
    ++ graph.nodes.flatMap (fun node =>
      failWhen (!(node.validateContract tables).accepted)
        ("node:" ++ node.nodeId ++ ":" ++ (node.validateContract tables).reason))
    ++ graph.edges.flatMap (fun edge =>
      failWhen (!edge.validateContract.accepted)
        ("edge:" ++ edge.edgeId ++ ":" ++ edge.validateContract.reason))
    ++ (graph.nodes.flatMap (·.evidenceRefs) ++ graph.edges.flatMap (·.evidenceRefs)).flatMap
      (fun evidenceRef =>
        failWhen (!validBacklinkSources.contains evidenceRef)
          ("missing_evidence_backlink:" ++ evidenceRef))
    ++ graph.backlinks.flatMap (fun backlink =>
      failWhen (containsRawSoulPrivateMarker tables backlink.sourceKind
          || containsRawSoulPrivateMarker tables backlink.sourceId)
        ("evidence_backlink_raw_soul_private:" ++ backlink.sourceId))
    ++ graph.edges.flatMap fun edge =>
      failWhen (!nodeIds.contains edge.fromNodeId)
          ("edge:" ++ edge.edgeId ++ ":memory_graph_edge_from_missing")
        ++ failWhen (!nodeIds.contains edge.toNodeId)
          ("edge:" ++ edge.edgeId ++ ":memory_graph_edge_to_missing")

/-- Bindings of one owner that differ in the revision from the one before. -/
def ownerRevisionFailures
    : List MemoryGraphOwnerBinding → List MemoryGraphOwnerBinding → List String
  | _, [] => []
  | earlier, owner :: rest =>
      failWhen ((lookup (·.ownerRef) earlier owner.ownerRef).any
          (·.ownerRevision != owner.ownerRevision))
        "memory_graph_owner_revision_inconsistent"
        ++ ownerRevisionFailures (earlier ++ [owner]) rest

def nodeOwnerFailures (owner : Option MemoryGraphOwnerBinding) : List String :=
  match owner with
  | none => ["memory_graph_persistent_node_owner_missing"]
  | some owner =>
      if !owner.ownerRef.isValid || Store.trimIsEmpty owner.nodeId then
        ["memory_graph_persistent_node_owner_identity_invalid"]
      else if !owner.visible then ["memory_graph_persistent_node_owner_not_visible"]
      else if owner.ownerRevision = 0 then ["memory_graph_persistent_node_owner_revision_invalid"]
      else []

/-- All reasons not to accept a graph, before they are sorted. -/
def persistenceFailures (memorySpaceId mountedSubjectId : String) (manifestGeneration : Nat)
    (graph : TemporalMemoryGraph) (ownerBindings : List MemoryGraphOwnerBinding)
    : List String :=
  temporalMemoryGraphWriteGate tables graph
    ++ failWhen memorySpaceId.isEmpty "memory_graph_memory_space_id_empty"
    ++ failWhen mountedSubjectId.isEmpty "memory_graph_mounted_subject_id_empty"
    ++ failWhen (manifestGeneration == 0) "memory_graph_manifest_generation_invalid"
    ++ duplicateFailures "memory_graph_node_id_duplicate" [] (graph.nodes.map (·.nodeId))
    ++ duplicateFailures "memory_graph_edge_id_duplicate" [] (graph.edges.map (·.edgeId))
    ++ duplicateFailures "memory_graph_backlink_id_duplicate" []
      (graph.backlinks.map (memoryGraphBacklinkKey codec))
    ++ duplicateFailures "memory_graph_owner_node_id_duplicate" []
      (ownerBindings.map (·.nodeId))
    ++ ownerRevisionFailures [] ownerBindings
    ++ graph.nodes.flatMap fun node =>
      nodeOwnerFailures (lookup (·.nodeId) ownerBindings node.nodeId)

/-! ## Dependencies of a node -/

/-- The neighbours of a node along edges that allow expansion, each with its edge. They are sorted
in the source; only the sets built from them matter.
-/
def recallAdjacency (edges : List MemoryGraphEdge) (nodeId : String) : List (String × String) :=
  (edges.filter fun edge => graphEdgeAllowsRecallExpansion edge.kind).flatMap fun edge =>
    (if edge.fromNodeId = nodeId then [(edge.toNodeId, edge.edgeId)] else [])
      ++ (if edge.toNodeId = nodeId then [(edge.fromNodeId, edge.edgeId)] else [])

/-- The nodes within two steps and the edges on the way. -/
def graphRecallDependencyIds (sourceNodeId : String) (graph : TemporalMemoryGraph)
    : List String × List String :=
  let direct := recallAdjacency graph.edges sourceNodeId
  let secondHop := direct.flatMap fun neighbor => recallAdjacency graph.edges neighbor.1
  let nodeIds := sortDedup (sourceNodeId :: (direct ++ secondHop).map (·.1))
  (nodeIds.filter (graph.nodes.map (·.nodeId)).contains,
    sortDedup ((direct ++ secondHop).map (·.2)))

/-! ## The plan -/

/-- What a plan is built from, with trimmed names. -/
structure PlanInput where
  memorySpaceId : String
  mountedSubjectId : String
  manifestGeneration : Nat
  graph : TemporalMemoryGraph
  ownerBindings : List MemoryGraphOwnerBinding

namespace PlanInput

variable (input : PlanInput)

def storageKey (logicalKey : String) : String :=
  scopedMemoryGraphStorageKey codec input.memorySpaceId input.mountedSubjectId logicalKey

def nodeMembershipKey (nodeId : String) : String :=
  input.storageKey codec ("node_membership:" ++ nodeId)

def edgeMembershipKey (edgeId : String) : String :=
  input.storageKey codec ("edge_membership:" ++ edgeId)

def backlinkMembershipKey (backlink : EvidenceBacklink) : String :=
  input.storageKey codec ("backlink_membership:" ++ memoryGraphBacklinkKey codec backlink)

def indexKey (ownerRef : GovernedMemoryOwnerRef) : String :=
  memoryGraphRecallIndexKey codec input.memorySpaceId input.mountedSubjectId
    (governedMemoryRecallCandidateId codec ownerRef)

def revisionKey : String :=
  input.storageKey codec "graph_revision"

def scopeDigest : String :=
  memoryGraphScopeDigest codec input.memorySpaceId input.mountedSubjectId

def ownerOf (nodeId : String) : Option MemoryGraphOwnerBinding :=
  lookup (·.nodeId) input.ownerBindings nodeId

def graphRevision : String :=
  "graph_revision:" ++ memoryGraphSerializedDigest codec (codec.revisionInputText
    { schemaVersion := memoryGraphSchemaVersion
      scopeDigest := input.scopeDigest codec
      manifestGeneration := input.manifestGeneration
      nodes := sortBy (·.nodeId) input.graph.nodes
      edges := sortBy (·.edgeId) input.graph.edges
      backlinks := sortBy (memoryGraphBacklinkKey codec) input.graph.backlinks
      owners := sortBy (fun owner => toLex (owner.ownerRef, owner.nodeId)) input.ownerBindings })

def scopeBinding : MemoryGraphScopeBinding :=
  { schemaVersion := memoryGraphSchemaVersion
    memorySpaceId := input.memorySpaceId
    mountedSubjectId := input.mountedSubjectId
    scopeDigest := input.scopeDigest codec
    manifestGeneration := input.manifestGeneration
    graphRevision := input.graphRevision codec }

/-- The keys of all backlinks of some evidence. -/
def backlinkKeysForEvidence (evidenceRefs : List String) : List String :=
  sortDedup (evidenceRefs.flatMap fun evidenceRef =>
    (input.graph.backlinks.filter (·.sourceId == evidenceRef)).map
      (input.backlinkMembershipKey codec))

/-- The keys of the backlinks that the dependencies of a node need. -/
def dependencyBacklinks (nodeId : String) : List String :=
  let (nodeIds, edgeIds) := graphRecallDependencyIds nodeId input.graph
  input.backlinkKeysForEvidence codec (sortDedup
    ((nodeIds.filterMap (lookup (·.nodeId) input.graph.nodes)).flatMap (·.evidenceRefs)
      ++ (edgeIds.filterMap (lookup (·.edgeId) input.graph.edges)).flatMap (·.evidenceRefs)))

/-- The dependencies of an owner's nodes, as keys. -/
structure RawIndexDependencies where
  ownerRef : GovernedMemoryOwnerRef
  ownerRevision : Nat
  sourceAnchorNodeIds : List String
  nodeMembershipKeys : List String
  edgeMembershipKeys : List String
  backlinkMembershipKeys : List String
deriving DecidableEq, Repr

/-- The nodes of an owner. -/
def nodesOf (ownerRef : GovernedMemoryOwnerRef) : List MemoryGraphNode :=
  input.graph.nodes.filter fun node => (input.ownerOf node.nodeId).any (·.ownerRef == ownerRef)

/-- The owners of the nodes, in order. -/
def owners : List GovernedMemoryOwnerRef :=
  (((input.graph.nodes.filterMap fun node => input.ownerOf node.nodeId).map
    (·.ownerRef)).insertionSort (· ≤ ·)).destutter (· ≠ ·)

def rawIndex (ownerRef : GovernedMemoryOwnerRef) : RawIndexDependencies :=
  let nodeIds := (input.nodesOf ownerRef).map (·.nodeId)
  { ownerRef
    ownerRevision := ((nodeIds.head?.bind input.ownerOf).map (·.ownerRevision)).getD 0
    sourceAnchorNodeIds := sortDedup nodeIds
    nodeMembershipKeys := sortDedup (nodeIds.flatMap fun nodeId =>
      (graphRecallDependencyIds nodeId input.graph).1.map (input.nodeMembershipKey codec))
    edgeMembershipKeys := sortDedup (nodeIds.flatMap fun nodeId =>
      (graphRecallDependencyIds nodeId input.graph).2.map (input.edgeMembershipKey codec))
    backlinkMembershipKeys := sortDedup (nodeIds.flatMap (input.dependencyBacklinks codec)) }

def nodeMembership (node : MemoryGraphNode) (owner : MemoryGraphOwnerBinding)
    : MemoryGraphNodeMembership :=
  let membership : MemoryGraphNodeMembership :=
    { toMemoryGraphScopeBinding := input.scopeBinding codec
      membershipKey := input.nodeMembershipKey codec node.nodeId
      nodeId := node.nodeId
      documentKey := input.storageKey codec ("node:" ++ node.nodeId)
      documentDigest := memoryGraphSerializedDigest codec (codec.nodeText node)
      ownerRef := owner.ownerRef
      ownerRevision := owner.ownerRevision
      indexKey := input.indexKey codec owner.ownerRef
      backlinkMembershipKeys := input.backlinkKeysForEvidence codec node.evidenceRefs
      dependencyDigest := "" }
  { membership with dependencyDigest := memoryGraphNodeMembershipDigest codec membership }

def nodeMemberships : List MemoryGraphNodeMembership :=
  sortBy (·.membershipKey) (input.graph.nodes.filterMap fun node =>
    (input.ownerOf node.nodeId).map (input.nodeMembership codec node))

def edgeMembership (edge : MemoryGraphEdge) : MemoryGraphEdgeMembership :=
  let membership : MemoryGraphEdgeMembership :=
    { toMemoryGraphScopeBinding := input.scopeBinding codec
      membershipKey := input.edgeMembershipKey codec edge.edgeId
      edgeId := edge.edgeId
      documentKey := input.storageKey codec ("edge:" ++ edge.edgeId)
      documentDigest := memoryGraphSerializedDigest codec (codec.edgeText edge)
      fromNodeMembershipKey := input.nodeMembershipKey codec edge.fromNodeId
      toNodeMembershipKey := input.nodeMembershipKey codec edge.toNodeId
      backlinkMembershipKeys := input.backlinkKeysForEvidence codec edge.evidenceRefs
      dependencyDigest := "" }
  { membership with dependencyDigest := memoryGraphEdgeMembershipDigest codec membership }

def edgeMemberships : List MemoryGraphEdgeMembership :=
  sortBy (·.membershipKey) (input.graph.edges.map (input.edgeMembership codec))

def backlinkMembership (backlink : EvidenceBacklink) : MemoryGraphBacklinkMembership :=
  let membershipKey := input.backlinkMembershipKey codec backlink
  let membership : MemoryGraphBacklinkMembership :=
    { toMemoryGraphScopeBinding := input.scopeBinding codec
      membershipKey
      backlinkKey := memoryGraphBacklinkKey codec backlink
      documentKey := input.storageKey codec
        ("backlink:" ++ memoryGraphBacklinkKey codec backlink)
      documentDigest := memoryGraphSerializedDigest codec (codec.backlinkText backlink)
      nodeMembershipKeys := sortDedup ((input.nodeMemberships codec).filter
        (·.backlinkMembershipKeys.contains membershipKey) |>.map (·.membershipKey))
      edgeMembershipKeys := sortDedup ((input.edgeMemberships codec).filter
        (·.backlinkMembershipKeys.contains membershipKey) |>.map (·.membershipKey))
      indexKeys := sortDedup ((input.owners.map (input.rawIndex codec)).filter
        (·.backlinkMembershipKeys.contains membershipKey)
        |>.map fun raw => input.indexKey codec raw.ownerRef)
      dependencyDigest := "" }
  { membership with dependencyDigest := memoryGraphBacklinkMembershipDigest codec membership }

def backlinkMemberships : List MemoryGraphBacklinkMembership :=
  sortBy (·.membershipKey) (input.graph.backlinks.map (input.backlinkMembership codec))

/-- References by key, in order; the last one with a key stays. -/
def refMap (refs : List MemoryGraphDependencyRef) : List MemoryGraphDependencyRef :=
  (sortDedup (refs.map (·.storageKey))).filterMap (lookup (·.storageKey) refs)

def nodeRefs : List MemoryGraphDependencyRef :=
  refMap ((input.nodeMemberships codec).map fun membership =>
    { storageKey := membership.membershipKey, dependencyDigest := membership.dependencyDigest })

def edgeRefs : List MemoryGraphDependencyRef :=
  refMap ((input.edgeMemberships codec).map fun membership =>
    { storageKey := membership.membershipKey, dependencyDigest := membership.dependencyDigest })

def backlinkRefs : List MemoryGraphDependencyRef :=
  refMap ((input.backlinkMemberships codec).map fun membership =>
    { storageKey := membership.membershipKey, dependencyDigest := membership.dependencyDigest })

def recallIndex (raw : RawIndexDependencies) : MemoryGraphRecallIndexDoc :=
  let ownerCandidateId := governedMemoryRecallCandidateId codec raw.ownerRef
  let index : MemoryGraphRecallIndexDoc :=
    { toMemoryGraphScopeBinding := input.scopeBinding codec
      owner := "bm-sdk::MemoryRuntime"
      indexId := "graph_index:" ++ ownerCandidateId
      indexKey := input.indexKey codec raw.ownerRef
      ownerRef := raw.ownerRef
      ownerCandidateId
      ownerRevision := raw.ownerRevision
      sourceAnchorNodeIds := raw.sourceAnchorNodeIds
      nodeMemberships := raw.nodeMembershipKeys.filterMap
        (lookup (·.storageKey) (input.nodeRefs codec))
      edgeMemberships := raw.edgeMembershipKeys.filterMap
        (lookup (·.storageKey) (input.edgeRefs codec))
      backlinkMemberships := raw.backlinkMembershipKeys.filterMap
        (lookup (·.storageKey) (input.backlinkRefs codec))
      nodeCount := raw.nodeMembershipKeys.length
      edgeCount := raw.edgeMembershipKeys.length
      backlinkCount := raw.backlinkMembershipKeys.length
      dependencyDigest := "" }
  { index with dependencyDigest := memoryGraphRecallIndexDigest codec index }

def recallIndexes : List MemoryGraphRecallIndexDoc :=
  sortBy (·.indexKey)
    (input.owners.map fun ownerRef => input.recallIndex codec (input.rawIndex codec ownerRef))

def revisionDoc : MemoryGraphRevisionDoc :=
  let revision : MemoryGraphRevisionDoc :=
    { toMemoryGraphScopeBinding := input.scopeBinding codec
      revisionKey := input.revisionKey codec
      nodeCount := input.graph.nodes.length
      edgeCount := input.graph.edges.length
      backlinkCount := input.graph.backlinks.length
      indexCount := (input.recallIndexes codec).length
      dependencyDigest := "" }
  { revision with dependencyDigest := memoryGraphRevisionDigest codec revision }

def scopeManifest : MemoryGraphScopeManifest :=
  let manifest : MemoryGraphScopeManifest :=
    { toMemoryGraphScopeBinding := input.scopeBinding codec
      nodeCount := input.graph.nodes.length
      edgeCount := input.graph.edges.length
      backlinkCount := input.graph.backlinks.length
      indexCount := (input.recallIndexes codec).length
      nodeMemberships := input.nodeRefs codec
      edgeMemberships := input.edgeRefs codec
      backlinkMemberships := input.backlinkRefs codec
      recallIndexes := (input.recallIndexes codec).map fun index =>
        { storageKey := index.indexKey, dependencyDigest := index.dependencyDigest }
      revision :=
        { storageKey := input.revisionKey codec
          dependencyDigest := (input.revisionDoc codec).dependencyDigest }
      dependencyDigest := "" }
  { manifest with dependencyDigest := memoryGraphManifestDigest codec manifest }

end PlanInput

def buildMemoryGraphPersistencePlan (memorySpaceId mountedSubjectId : String)
    (manifestGeneration : Nat) (graph : TemporalMemoryGraph)
    (ownerBindings : List MemoryGraphOwnerBinding)
    : MemoryGraphPersistencePlan :=
  let memorySpaceId := trim memorySpaceId
  let mountedSubjectId := trim mountedSubjectId
  let failures := sortDedup (persistenceFailures tables codec memorySpaceId mountedSubjectId
    manifestGeneration graph ownerBindings)
  if !failures.isEmpty then { failures }
  else
    let input : PlanInput :=
      { memorySpaceId, mountedSubjectId, manifestGeneration, graph, ownerBindings }
    { accepted := true
      failures := []
      scopeManifest := some (input.scopeManifest codec)
      revision := some (input.revisionDoc codec)
      nodeMemberships := input.nodeMemberships codec
      edgeMemberships := input.edgeMemberships codec
      backlinkMemberships := input.backlinkMemberships codec
      recallIndexes := input.recallIndexes codec }

end BeetleMemory.Graph
