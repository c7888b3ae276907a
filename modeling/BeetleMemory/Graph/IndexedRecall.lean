import BeetleMemory.Graph.Acceptance
import BeetleMemory.Graph.Ranking

/-! Recall over the part of a graph that recall indexes name. The indexes hold the nodes within two
steps of their anchors and the edges on the way, while scores read every edge at a node and the
latest observation of the whole graph.
-/

namespace BeetleMemory.Graph

open LongTerm (GovernedMemoryOwnerRef)

variable {tables : TextTables} {query : String} {graph other : TemporalMemoryGraph}
  {facetContext : GraphFacetPropagationContext} {anchors : List String}

/-! ## The named part -/

def namedNodeIds (graph : TemporalMemoryGraph) (anchors : List String) : List String :=
  anchors.flatMap fun anchor => (graphRecallDependencyIds anchor graph).1

def namedEdgeIds (graph : TemporalMemoryGraph) (anchors : List String) : List String :=
  anchors.flatMap fun anchor => (graphRecallDependencyIds anchor graph).2

/-- The evidence of the named nodes and edges. -/
def namedEvidence (graph : TemporalMemoryGraph) (anchors : List String) : List String :=
  (graph.nodes.filter fun node => (namedNodeIds graph anchors).contains node.nodeId).flatMap
      (·.evidenceRefs)
    ++ (graph.edges.filter fun edge => (namedEdgeIds graph anchors).contains edge.edgeId).flatMap
      (·.evidenceRefs)

/-- The nodes, edges and backlinks that the recall indexes of the anchors name. -/
def indexedGraph (graph : TemporalMemoryGraph) (anchors : List String) : TemporalMemoryGraph where
  nodes := graph.nodes.filter fun node => (namedNodeIds graph anchors).contains node.nodeId
  edges := graph.edges.filter fun edge => (namedEdgeIds graph anchors).contains edge.edgeId
  backlinks := graph.backlinks.filter fun backlink =>
    (namedEvidence graph anchors).contains backlink.sourceId

/-- The nodes of the given owners. -/
def PlanInput.anchorsOf (input : PlanInput) (owners : List GovernedMemoryOwnerRef)
    : List String :=
  owners.flatMap fun ownerRef => (input.nodesOf ownerRef).map (·.nodeId)

theorem mem_recallAdjacency {edges : List MemoryGraphEdge} {nodeId neighborId edgeId : String}
    : (neighborId, edgeId) ∈ recallAdjacency edges nodeId
      ↔ ∃ edge ∈ edges, graphEdgeAllowsRecallExpansion edge.kind = true ∧ edge.edgeId = edgeId
        ∧ (edge.fromNodeId = nodeId ∧ edge.toNodeId = neighborId
          ∨ edge.toNodeId = nodeId ∧ edge.fromNodeId = neighborId) := by
  simp only [recallAdjacency, List.mem_flatMap, List.mem_filter, List.mem_append, and_assoc]
  refine exists_congr fun edge => and_congr_right fun _ => and_congr_right fun _ => ?_
  by_cases starts : edge.fromNodeId = nodeId <;> by_cases ends : edge.toNodeId = nodeId <;>
    simp [starts, ends, eq_comm, and_comm, or_and_left]

/-- At most one step from an anchor. -/
def ReachedInOne (graph : TemporalMemoryGraph) (anchors : List String) (nodeId : String) : Prop :=
  nodeId ∈ anchors ∨ ∃ anchor ∈ anchors, ExpandableStep graph anchor nodeId

theorem ReachedInOne.two {nodeId : String} (reached : ReachedInOne graph anchors nodeId)
    : ReachedInTwo graph anchors nodeId := by
  rcases reached with anchor | ⟨anchor, listed, step⟩
  · exact Or.inl anchor
  · exact Or.inr ⟨anchor, listed, Or.inl step⟩

theorem ReachedInOne.step {nodeId next : String} (reached : ReachedInOne graph anchors nodeId)
    (step : ExpandableStep graph nodeId next)
    : ReachedInTwo graph anchors next := by
  rcases reached with anchor | ⟨anchor, listed, first⟩
  · exact Or.inr ⟨nodeId, anchor, Or.inl step⟩
  · exact Or.inr ⟨anchor, listed, Or.inr ⟨nodeId, first, step⟩⟩

theorem exists_recallAdjacency {nodeId neighborId : String}
    : (∃ edgeId, (neighborId, edgeId) ∈ recallAdjacency graph.edges nodeId)
      ↔ ExpandableStep graph nodeId neighborId := by
  simp only [mem_recallAdjacency, ExpandableStep]
  constructor
  · rintro ⟨edgeId, edge, member, allowed, -, ends⟩
    exact ⟨edge, member, allowed, ends⟩
  · rintro ⟨edge, member, allowed, ends⟩
    exact ⟨edge.edgeId, edge, member, allowed, rfl, ends⟩

/-- The named nodes are those within two steps. -/
theorem mem_namedNodeIds {nodeId : String}
    : nodeId ∈ namedNodeIds graph anchors
      ↔ ReachedInTwo graph anchors nodeId ∧ nodeId ∈ graph.nodes.map (·.nodeId) := by
  simp only [namedNodeIds, graphRecallDependencyIds, List.mem_flatMap, List.mem_filter,
    mem_sortDedup, List.mem_cons, List.mem_map, List.mem_append, List.contains_eq_mem,
    decide_eq_true_eq]
  constructor
  · rintro ⟨anchor, listed, near, inside⟩
    refine ⟨?_, inside⟩
    rcases near with rfl | ⟨⟨neighbor, edgeId⟩, direct | ⟨between, first, second⟩, rfl⟩
    · exact Or.inl listed
    · exact Or.inr ⟨anchor, listed, Or.inl (exists_recallAdjacency.mp ⟨edgeId, direct⟩)⟩
    · exact Or.inr ⟨anchor, listed, Or.inr ⟨between.1, exists_recallAdjacency.mp ⟨_, first⟩,
        exists_recallAdjacency.mp ⟨edgeId, second⟩⟩⟩
  · rintro ⟨anchor | ⟨anchor, listed, step | ⟨between, first, second⟩⟩, inside⟩
    · exact ⟨nodeId, anchor, Or.inl rfl, inside⟩
    · obtain ⟨edgeId, direct⟩ := exists_recallAdjacency.mpr step
      exact ⟨anchor, listed, Or.inr ⟨(nodeId, edgeId), Or.inl direct, rfl⟩, inside⟩
    · obtain ⟨firstId, direct⟩ := exists_recallAdjacency.mpr first
      obtain ⟨edgeId, next⟩ := exists_recallAdjacency.mpr second
      exact ⟨anchor, listed, Or.inr ⟨(nodeId, edgeId), Or.inr ⟨_, direct, next⟩, rfl⟩, inside⟩

theorem touches_iff {edge : MemoryGraphEdge} {nodeId : String}
    : edge.touches nodeId = true ↔ edge.fromNodeId = nodeId ∨ edge.toNodeId = nodeId := by
  simp [MemoryGraphEdge.touches]

/-- The named edges are those that allow expansion at a node within one step. -/
theorem mem_indexedGraph_edges (distinct : (graph.edges.map (·.edgeId)).Nodup)
    {edge : MemoryGraphEdge}
    : edge ∈ (indexedGraph graph anchors).edges
      ↔ edge ∈ graph.edges ∧ graphEdgeAllowsRecallExpansion edge.kind = true
        ∧ ∃ nodeId, ReachedInOne graph anchors nodeId ∧ edge.touches nodeId = true := by
  have ends : ∀ {nodeId neighborId}, edge ∈ graph.edges →
      (neighborId, edge.edgeId) ∈ recallAdjacency graph.edges nodeId →
      graphEdgeAllowsRecallExpansion edge.kind = true ∧ edge.touches nodeId = true := by
    intro nodeId neighborId member adjacent
    obtain ⟨same, inside, allowed, sameId, joined⟩ := mem_recallAdjacency.mp adjacent
    obtain rfl := List.inj_on_of_nodup_map distinct inside member sameId
    exact ⟨allowed, touches_iff.mpr (joined.imp And.left And.left)⟩
  have adjacent : ∀ {nodeId}, edge ∈ graph.edges →
      graphEdgeAllowsRecallExpansion edge.kind = true → edge.touches nodeId = true →
      ∃ neighborId, (neighborId, edge.edgeId) ∈ recallAdjacency graph.edges nodeId := by
    intro nodeId member allowed touches
    rcases touches_iff.mp touches with starts | stops
    · exact ⟨_, mem_recallAdjacency.mpr ⟨edge, member, allowed, rfl, Or.inl ⟨starts, rfl⟩⟩⟩
    · exact ⟨_, mem_recallAdjacency.mpr ⟨edge, member, allowed, rfl, Or.inr ⟨stops, rfl⟩⟩⟩
  simp only [indexedGraph, List.mem_filter, List.contains_eq_mem, decide_eq_true_eq]
  refine and_congr_right fun member => ?_
  simp only [namedEdgeIds, graphRecallDependencyIds, List.mem_flatMap, mem_sortDedup,
    List.mem_map, List.mem_append]
  constructor
  · rintro ⟨anchor, listed, ⟨neighbor, edgeId⟩, direct | ⟨between, first, second⟩, rfl⟩
    · obtain ⟨allowed, touches⟩ := ends member direct
      exact ⟨allowed, anchor, Or.inl listed, touches⟩
    · obtain ⟨allowed, touches⟩ := ends member second
      exact ⟨allowed, between.1,
        Or.inr ⟨anchor, listed, exists_recallAdjacency.mp ⟨_, first⟩⟩, touches⟩
  · rintro ⟨allowed, nodeId, reached, touches⟩
    obtain ⟨neighborId, found⟩ := adjacent member allowed touches
    rcases reached with anchor | ⟨anchor, listed, step⟩
    · exact ⟨nodeId, anchor, _, Or.inl found, rfl⟩
    · obtain ⟨edgeId, first⟩ := exists_recallAdjacency.mpr step
      exact ⟨anchor, listed, _, Or.inr ⟨_, first, found⟩, rfl⟩

/-! ## What a score reads -/

/-- Two graphs look the same at a node: the node itself, its edges, the backlinks of its evidence
and whether it is superseded.
-/
structure SameAt (graph other : TemporalMemoryGraph) (nodeId : String) : Prop where
  node : graph.node nodeId = other.node nodeId
  edges : graph.connectedEdges nodeId = other.connectedEdges nodeId
  backlink : ∀ node, graph.node nodeId = some node → ∀ evidenceRef ∈ node.evidenceRefs,
    graph.backlinks.filter (·.sourceId == evidenceRef)
      = other.backlinks.filter (·.sourceId == evidenceRef)
  superseded : graphNodeIsSuperseded nodeId graph = graphNodeIsSuperseded nodeId other

/-- Tests that only hold at edges of a node can be made on those edges. -/
theorem any_edges_eq {nodeId : String} {test : MemoryGraphEdge → Bool}
    (touching : ∀ edge, test edge = true → edge.touches nodeId = true)
    : graph.edges.any test = (graph.connectedEdges nodeId).any test := by
  rw [TemporalMemoryGraph.connectedEdges, List.any_filter]
  refine List.any_congr rfl fun edge => ?_
  cases holds : test edge with
  | false => simp
  | true => simp [touching edge holds]

theorem SameAt.connected {nodeId : String} (same : SameAt graph other nodeId)
    (anchorIds : List String)
    : graphNodeConnectedToAny nodeId anchorIds graph
      = graphNodeConnectedToAny nodeId anchorIds other := by
  have touching : ∀ edge : MemoryGraphEdge,
      (anchorIds.any fun anchor => (edge.fromNodeId == nodeId && edge.toNodeId == anchor)
        || (edge.toNodeId == nodeId && edge.fromNodeId == anchor)) = true →
      edge.touches nodeId = true := by
    intro edge holds
    obtain ⟨anchor, -, joined⟩ := List.any_eq_true.mp holds
    simp only [Bool.or_eq_true, Bool.and_eq_true, beq_iff_eq] at joined
    exact touches_iff.mpr (joined.imp And.left And.left)
  rw [graphNodeConnectedToAny, graphNodeConnectedToAny, any_edges_eq touching,
    any_edges_eq touching, same.edges]

theorem SameAt.supersedes {nodeId : String} (same : SameAt graph other nodeId)
    : supersedesOther nodeId graph = supersedesOther nodeId other := by
  have touching : ∀ edge : MemoryGraphEdge,
      (edge.kind == .supersedes && edge.fromNodeId == nodeId) = true →
      edge.touches nodeId = true := by
    intro edge holds
    simp only [Bool.and_eq_true, beq_iff_eq] at holds
    exact touches_iff.mpr (Or.inl holds.2)
  rw [supersedesOther, supersedesOther, any_edges_eq touching, any_edges_eq touching, same.edges]

theorem SameAt.find_backlink {nodeId : String} (same : SameAt graph other nodeId)
    {node : MemoryGraphNode} (found : graph.node nodeId = some node) {evidenceRef : String}
    (member : evidenceRef ∈ node.evidenceRefs)
    : graph.backlink evidenceRef = other.backlink evidenceRef := by
  have heads := congrArg List.head? (same.backlink node found evidenceRef member)
  simpa [TemporalMemoryGraph.backlink] using heads

theorem SameAt.authority {nodeId : String} (same : SameAt graph other nodeId)
    : graphAuthority nodeId graph = graphAuthority nodeId other := by
  rw [graphAuthority, graphAuthority, ← same.node]
  cases found : graph.node nodeId with
  | none => rfl
  | some node =>
      have links : node.evidenceRefs.filterMap graph.backlink
          = node.evidenceRefs.filterMap other.backlink :=
        List.filterMap_congr fun evidenceRef member => same.find_backlink found member
      simp only [Option.map_some, links]

theorem SameAt.observedRank {nodeId : String} (same : SameAt graph other nodeId)
    : graphObservedRank nodeId graph = graphObservedRank nodeId other := by
  rw [graphObservedRank, graphObservedRank, ← same.node, same.edges]
  cases found : graph.node nodeId with
  | none => rfl
  | some node =>
      have links : (node.evidenceRefs.filterMap fun evidenceRef =>
            (graph.backlink evidenceRef).map fun _ => 1)
          = node.evidenceRefs.filterMap fun evidenceRef =>
            (other.backlink evidenceRef).map fun _ => 1 :=
        List.filterMap_congr fun evidenceRef member => by
          rw [same.find_backlink found member]
      simp only [Option.bind_some, links]

theorem SameAt.evidenceQuality {nodeId : String} (same : SameAt graph other nodeId)
    : evidenceQualityScore nodeId graph = evidenceQualityScore nodeId other := by
  rw [evidenceQualityScore, evidenceQualityScore, ← same.node]
  cases found : graph.node nodeId with
  | none => rfl
  | some node =>
      have printed : (node.evidenceRefs.filter fun evidenceRef =>
            graph.backlinks.any fun backlink =>
              backlink.sourceId == evidenceRef && !backlink.fingerprint.isEmpty)
          = node.evidenceRefs.filter fun evidenceRef =>
            other.backlinks.any fun backlink =>
              backlink.sourceId == evidenceRef && !backlink.fingerprint.isEmpty := by
        refine List.filter_congr fun evidenceRef member => ?_
        have links := congrArg (·.any fun backlink => !backlink.fingerprint.isEmpty)
          (same.backlink node found evidenceRef member)
        simpa [List.any_filter] using links
      simp only [Option.map_some, Option.getD_some, printed]

/-- Graphs that look the same at a node give it the same score. -/
theorem SameAt.score {nodeId : String} (same : SameAt graph other nodeId)
    : scoreOf tables query graph facetContext nodeId
      = scoreOf tables query other facetContext nodeId := by
  have joined : connectedAnchors nodeId graph facetContext
      = connectedAnchors nodeId other facetContext :=
    List.filter_congr fun anchor _ => same.connected [anchor]
  have groups : graphFacetEvidenceGroups nodeId graph facetContext
      = graphFacetEvidenceGroups nodeId other facetContext := by
    rw [graphFacetEvidenceGroups, graphFacetEvidenceGroups, joined]
  have times : graphFacetTemporalScore nodeId graph facetContext
      = graphFacetTemporalScore nodeId other facetContext := by
    rw [graphFacetTemporalScore, graphFacetTemporalScore, graphFacetObservedAt,
      graphFacetObservedAt, joined]
  have terms : scoreTerms tables query nodeId graph facetContext
      = scoreTerms tables query nodeId other facetContext := by
    simp only [scoreTerms, graphNeighborhoodScore, graphTemporalReasoningScore,
      graphFacetExactScore, graphFacetExpandedScore, anchorScore, graphFacetAuthorityScore,
      same.node, same.edges, same.superseded, same.authority, same.observedRank,
      same.evidenceQuality, same.connected, groups, times]
  simp only [scoreOf, graphRecallCandidateScoreWithFacets, terms, supersedesBonus,
    same.supersedes]

end BeetleMemory.Graph
