import BeetleMemory.Graph.Text
import BeetleMemory.Lib.Keyed

/-! Memory graphs: nodes, edges with their validity in time, and backlinks to evidence. -/

namespace BeetleMemory.Graph

open Store (trimIsEmpty)

variable (tables : TextTables)

structure NextGenContractValidation where
  accepted : Bool
  reason : String
deriving DecidableEq, Repr

def accepted : NextGenContractValidation :=
  { accepted := true, reason := "accepted" }

def rejected (reason : String) : NextGenContractValidation :=
  { accepted := false, reason }

/-- The first check that fails gives the reason. -/
def firstRejection : List (Bool × String) → NextGenContractValidation
  | [] => accepted
  | (fails, reason) :: rest => if fails then rejected reason else firstRejection rest

/-! ## Graphs -/

inductive MemoryGraphNodeKind where
  | subject | person | organization | project | device | task | place | concept | memoryRecord
  | procedure | soulArtifact
deriving DecidableEq, Repr

structure MemoryGraphNode where
  nodeId : String
  kind : MemoryGraphNodeKind
  label : String
  evidenceRefs : List String
deriving DecidableEq, Repr

def MemoryGraphNode.validateContract (self : MemoryGraphNode) : NextGenContractValidation :=
  firstRejection
    [(trimIsEmpty self.nodeId, "memory_graph_node_id_empty"),
      (trimIsEmpty self.label, "memory_graph_label_empty"),
      (self.evidenceRefs.isEmpty, "memory_graph_evidence_empty"),
      (containsRawSoulPrivateMarker tables self.label, "memory_graph_raw_soul_private_label"),
      (self.evidenceRefs.any (containsRawSoulPrivateMarker tables),
        "memory_graph_raw_soul_private_evidence_ref")]

inductive MemoryGraphEdgeKind where
  | supports | conflicts | supersedes | derivedFrom | relatesTo | usedByProcedure
  | relationshipBoundary
deriving DecidableEq, Repr

structure TemporalValidity where
  validFrom : Nat
  validUntil : Option Nat
  observedAt : Nat
  supersededBy : Option String
deriving DecidableEq, Repr

structure MemoryGraphEdge where
  edgeId : String
  kind : MemoryGraphEdgeKind
  fromNodeId : String
  toNodeId : String
  validity : TemporalValidity
  evidenceRefs : List String
deriving DecidableEq, Repr

namespace MemoryGraphEdge

def validateContract (self : MemoryGraphEdge) : NextGenContractValidation :=
  firstRejection
    [(trimIsEmpty self.edgeId, "memory_graph_edge_id_empty"),
      (trimIsEmpty self.fromNodeId, "memory_graph_from_empty"),
      (trimIsEmpty self.toNodeId, "memory_graph_to_empty"),
      (self.evidenceRefs.isEmpty, "memory_graph_edge_evidence_empty")]

/-- The edge starts or ends at the node. -/
def touches (self : MemoryGraphEdge) (nodeId : String) : Bool :=
  self.fromNodeId == nodeId || self.toNodeId == nodeId

end MemoryGraphEdge

structure EvidenceBacklink where
  sourceKind : String
  sourceId : String
  fingerprint : String
deriving DecidableEq, Repr

/-- The parts of a built graph that recall reads. -/
structure TemporalMemoryGraph where
  nodes : List MemoryGraphNode
  edges : List MemoryGraphEdge
  backlinks : List EvidenceBacklink
deriving DecidableEq, Repr

namespace TemporalMemoryGraph

def node (graph : TemporalMemoryGraph) (nodeId : String) : Option MemoryGraphNode :=
  graph.nodes.find? (·.nodeId == nodeId)

/-- The edges that start or end at a node. -/
def connectedEdges (graph : TemporalMemoryGraph) (nodeId : String) : List MemoryGraphEdge :=
  graph.edges.filter (·.touches nodeId)

/-- The first backlink of an evidence reference. -/
def backlink (graph : TemporalMemoryGraph) (evidenceRef : String) : Option EvidenceBacklink :=
  graph.backlinks.find? (·.sourceId == evidenceRef)

end TemporalMemoryGraph

/-! ## Recall inputs -/

structure GraphFacetPropagationContext where
  exactAnchorIds : List String := []
  expandedAnchorIds : List String := []
  coveredEvidenceGroups : List String := []
  candidateEvidenceGroups : List (String × List String) := []
  candidateObservedAt : List (String × Nat) := []
deriving DecidableEq, Repr

namespace GraphFacetPropagationContext

def isEmpty (self : GraphFacetPropagationContext) : Bool :=
  self.exactAnchorIds.isEmpty && self.expandedAnchorIds.isEmpty
    && self.coveredEvidenceGroups.isEmpty && self.candidateEvidenceGroups.isEmpty
    && self.candidateObservedAt.isEmpty

/-- The exact anchors, then the expanded ones. -/
def anchors (self : GraphFacetPropagationContext) : List String :=
  self.exactAnchorIds ++ self.expandedAnchorIds

def evidenceGroups (self : GraphFacetPropagationContext) (nodeId : String) : List String :=
  ((Keyed.lookup (·.1) self.candidateEvidenceGroups nodeId).map (·.2)).getD []

def observedAt (self : GraphFacetPropagationContext) (nodeId : String) : Nat :=
  ((Keyed.lookup (·.1) self.candidateObservedAt nodeId).map (·.2)).getD 0

end GraphFacetPropagationContext

structure GraphRecallExpansionBudget where
  maxHops : Nat
  maxNeighborsPerCandidate : Nat
  maxExpandedCandidates : Nat
deriving DecidableEq, Repr

/-- A text goes to the end of a list that does not have it yet. -/
def pushUnique (values : List String) (value : String) : List String :=
  if values.contains value then values else values ++ [value]

end BeetleMemory.Graph
