import BeetleMemory.Graph.IndexedRecall

/-! When recall over the named part of a graph equals recall over the whole graph. -/

namespace BeetleMemory.Graph

open LongTerm (GovernedMemoryOwnerRef)

variable {tables : TextTables} {query : String} {graph other : TemporalMemoryGraph}
  {facetContext : GraphFacetPropagationContext} {anchors : List String}

/-! ## Expansion along neighbours that agree -/

section Agreement

variable {maxNeighbors maxExpanded : Nat} {neighbors more : String → List String}

theorem expandHop_congr {frontier : List String} {state : ExpansionState}
    (agree : ∀ sourceId ∈ frontier, neighbors sourceId = more sourceId)
    : expandHop maxNeighbors maxExpanded neighbors frontier state
      = expandHop maxNeighbors maxExpanded more frontier state := by
  rw [expandHop, expandHop]
  generalize { state with nextFrontier := [] } = start
  induction frontier generalizing start with
  | nil => rfl
  | cons sourceId rest ih =>
      have here : visitSource maxNeighbors maxExpanded neighbors start sourceId
          = visitSource maxNeighbors maxExpanded more start sourceId := by
        rw [visitSource, visitSource, agree sourceId (by simp)]
      rw [List.foldl_cons, List.foldl_cons, here]
      exact ih (fun other member => agree other (by simp [member])) _

variable {candidateIds : List String} {budget : GraphRecallExpansionBudget}

theorem firstHop_congr
    (agree : ∀ sourceId ∈ candidateIds, neighbors sourceId = more sourceId)
    : firstHop neighbors candidateIds budget = firstHop more candidateIds budget :=
  expandHop_congr fun sourceId member => agree sourceId (mem_distinctSources.mp member)

theorem secondHop_congr
    (agree : ∀ sourceId ∈ candidateIds, neighbors sourceId = more sourceId)
    (next : ∀ sourceId ∈ candidateIds, ∀ nodeId ∈ neighbors sourceId,
      neighbors nodeId = more nodeId)
    : secondHop neighbors candidateIds budget = secondHop more candidateIds budget := by
  rw [secondHop, secondHop, ← firstHop_congr agree]
  refine expandHop_congr fun nodeId frontier => ?_
  obtain ⟨sourceId, source, step⟩ := firstHop_frontier frontier
  exact next sourceId source nodeId step

theorem runHops_eq (neighbors : String → List String) (candidateIds : List String)
    (budget : GraphRecallExpansionBudget) (maxHops : Nat)
    : runHops maxHops budget.maxNeighborsPerCandidate
        (max budget.maxExpandedCandidates candidateIds.length) neighbors
        (distinctSources candidateIds)
      = if maxHops = 0 then (startState candidateIds, [], [])
        else if maxHops = 1 then
          (firstHop neighbors candidateIds budget,
            (firstHop neighbors candidateIds budget).nextFrontier, [])
        else
          (secondHop neighbors candidateIds budget,
            (firstHop neighbors candidateIds budget).nextFrontier,
            (secondHop neighbors candidateIds budget).nextFrontier) := rfl

theorem runHops_frontier {maxHops : Nat} {nodeId : String}
    (frontier : nodeId ∈ (runHops maxHops budget.maxNeighborsPerCandidate
      (max budget.maxExpandedCandidates candidateIds.length) neighbors
      (distinctSources candidateIds)).2.1)
    : ∃ sourceId ∈ candidateIds, nodeId ∈ neighbors sourceId := by
  rw [runHops_eq] at frontier
  split_ifs at frontier
  · simp at frontier
  · exact firstHop_frontier frontier
  · exact firstHop_frontier frontier

/-- Expansion only looks at the neighbours of the candidates and of what the first hop adds. -/
theorem expandAlong_congr
    (agree : ∀ sourceId ∈ candidateIds, neighbors sourceId = more sourceId)
    (next : ∀ sourceId ∈ candidateIds, ∀ nodeId ∈ neighbors sourceId,
      neighbors nodeId = more nodeId)
    : expandAlong neighbors candidateIds budget = expandAlong more candidateIds budget := by
  have hops : runHops (min budget.maxHops 2) budget.maxNeighborsPerCandidate
        (max budget.maxExpandedCandidates candidateIds.length) neighbors
        (distinctSources candidateIds)
      = runHops (min budget.maxHops 2) budget.maxNeighborsPerCandidate
        (max budget.maxExpandedCandidates candidateIds.length) more
        (distinctSources candidateIds) := by
    rw [runHops_eq, runHops_eq, firstHop_congr agree, secondHop_congr agree next]
  have looked : ∀ nodeId ∈ (runHops (min budget.maxHops 2) budget.maxNeighborsPerCandidate
      (max budget.maxExpandedCandidates candidateIds.length) neighbors
      (distinctSources candidateIds)).2.1, neighbors nodeId = more nodeId := by
    intro nodeId frontier
    obtain ⟨sourceId, source, step⟩ := runHops_frontier frontier
    exact next sourceId source nodeId step
  simp only [expandAlong, ← hops]
  generalize runHops (min budget.maxHops 2) budget.maxNeighborsPerCandidate
    (max budget.maxExpandedCandidates candidateIds.length) neighbors
    (distinctSources candidateIds) = result at looked ⊢
  have same : (∃ nodeId ∈ result.2.1, ∃ neighborId ∈ neighbors nodeId,
        neighborId ∉ result.1.expandedCandidateIds)
      ↔ ∃ nodeId ∈ result.2.1, ∃ neighborId ∈ more nodeId,
        neighborId ∉ result.1.expandedCandidateIds := by
    refine exists_congr fun nodeId => and_congr_right fun member => ?_
    rw [looked nodeId member]
  simp only [same]

end Agreement

/-! ## Neighbours in graphs that look the same -/

section Sorting

variable {α : Type} {before after : α → α → Prop} [DecidableRel before] [DecidableRel after]

theorem orderedInsert_congr {first : α} {items : List α}
    (agree : ∀ item ∈ items, before first item ↔ after first item)
    : items.orderedInsert before first = items.orderedInsert after first := by
  induction items with
  | nil => rfl
  | cons item rest ih =>
      have here := agree item (by simp)
      have later := ih fun other member => agree other (by simp [member])
      by_cases comes : before first item
      · simp [List.orderedInsert, comes, here.mp comes]
      · have not : ¬after first item := fun holds => comes (here.mpr holds)
        simp [List.orderedInsert, comes, not, later]

/-- Sorting only compares the items it is given. -/
theorem insertionSort_congr {items : List α}
    (agree : ∀ first ∈ items, ∀ second ∈ items, before first second ↔ after first second)
    : items.insertionSort before = items.insertionSort after := by
  induction items with
  | nil => rfl
  | cons item rest ih =>
      have later := ih fun first inFirst second inSecond =>
        agree first (by simp [inFirst]) second (by simp [inSecond])
      rw [List.insertionSort_cons, List.insertionSort_cons, later]
      refine orderedInsert_congr fun other member => agree item (by simp) other ?_
      exact List.mem_cons_of_mem _ ((List.mem_insertionSort _).mp member)

end Sorting

theorem filterMap_otherEnd_eq (nodeId : String)
    : (graph.edges.filter fun edge => graphEdgeAllowsRecallExpansion edge.kind).filterMap
        (otherEnd nodeId)
      = ((graph.connectedEdges nodeId).filter fun edge =>
          graphEdgeAllowsRecallExpansion edge.kind).filterMap (otherEnd nodeId) := by
  rw [TemporalMemoryGraph.connectedEdges]
  induction graph.edges with
  | nil => rfl
  | cons edge rest ih =>
      by_cases touches : edge.touches nodeId = true
      · by_cases allowed : graphEdgeAllowsRecallExpansion edge.kind = true
        · simp [List.filterMap_cons, touches, allowed, ih]
        · simp [touches, allowed, ih]
      · have apart : otherEnd nodeId edge = none := by
          have ends := mt touches_iff.mpr touches
          rw [not_or] at ends
          simp [otherEnd, ends.1, ends.2]
        by_cases allowed : graphEdgeAllowsRecallExpansion edge.kind = true
        · simp [touches, allowed, apart, ih]
        · simp [touches, allowed, ih]

theorem sortNeighbors_congr {score rank otherScore otherRank : String → Nat}
    {items : List String} (scores : ∀ item ∈ items, score item = otherScore item)
    (ranks : ∀ item ∈ items, rank item = otherRank item)
    : items.insertionSort (NeighborBefore score rank)
      = items.insertionSort (NeighborBefore otherScore otherRank) := by
  refine insertionSort_congr fun first inFirst second inSecond => ?_
  simp only [NeighborBefore, scores first inFirst, scores second inSecond, ranks first inFirst,
    ranks second inSecond]

/-- Graphs that look the same at a node and its neighbours give it the same neighbours. -/
theorem graphExpansionNeighbors_congr {nodeId : String} (same : SameAt graph other nodeId)
    (around : ∀ neighborId, ExpandableStep graph nodeId neighborId
      → SameAt graph other neighborId)
    : graphExpansionNeighbors tables query nodeId graph facetContext
      = graphExpansionNeighbors tables query nodeId other facetContext := by
  have ends : (other.edges.filter fun edge =>
        graphEdgeAllowsRecallExpansion edge.kind).filterMap (otherEnd nodeId)
      = (graph.edges.filter fun edge =>
        graphEdgeAllowsRecallExpansion edge.kind).filterMap (otherEnd nodeId) := by
    rw [filterMap_otherEnd_eq, filterMap_otherEnd_eq, same.edges]
  have near : ∀ neighborId ∈ (graph.edges.filter fun edge =>
      graphEdgeAllowsRecallExpansion edge.kind).filterMap (otherEnd nodeId),
      SameAt graph other neighborId := by
    intro neighborId member
    obtain ⟨edge, inside, joined⟩ := List.mem_filterMap.mp member
    obtain ⟨listed, allowed⟩ := List.mem_filter.mp inside
    exact around neighborId ⟨edge, listed, allowed, otherEnd_eq_some.mp joined⟩
  rw [graphExpansionNeighbors, graphExpansionNeighbors, ends,
    sortNeighbors_congr (fun item member => congrArg (·.totalScore) (near item member).score)
      fun item member => ?_]
  rw [graphNodeRank, graphNodeRank, (near item member).edges]

/-- Graphs that look the same within two steps of the candidates give the same ranking. -/
theorem rerank_congr {budget : GraphRecallExpansionBudget}
    (same : ∀ nodeId, ReachedInTwo graph anchors nodeId → SameAt graph other nodeId)
    : rerankRecallWithTemporalGraphAndFacets tables query anchors graph budget facetContext
      = rerankRecallWithTemporalGraphAndFacets tables query anchors other budget
          facetContext := by
  have neighbors : ∀ nodeId, ReachedInOne graph anchors nodeId →
      graphExpansionNeighbors tables query nodeId graph facetContext
        = graphExpansionNeighbors tables query nodeId other facetContext := fun nodeId reached =>
    graphExpansionNeighbors_congr (same nodeId reached.two) fun neighborId step =>
      same neighborId (reached.step step)
  have expansion : expandRecallCandidates tables query anchors graph budget facetContext
      = expandRecallCandidates tables query anchors other budget facetContext := by
    refine expandAlong_congr (fun sourceId source => neighbors sourceId (Or.inl source)) ?_
    intro sourceId source nodeId step
    exact neighbors nodeId (Or.inr ⟨sourceId, source, mem_graphExpansionNeighbors.mp step⟩)
  have scores : (expandRecallCandidates tables query anchors graph budget
        facetContext).expandedCandidateIds.map (fun candidateId =>
          graphRecallCandidateScoreWithFacets tables query candidateId graph facetContext)
      = (expandRecallCandidates tables query anchors graph budget
        facetContext).expandedCandidateIds.map (fun candidateId =>
          graphRecallCandidateScoreWithFacets tables query candidateId other facetContext) := by
    refine List.map_congr_left fun nodeId member => ?_
    have lists : Lists (fun id => graphExpansionNeighbors tables query id graph facetContext)
        anchors (candidateLimit anchors budget) _ := lists_expandAlong
    exact (same nodeId (withinTwo_iff.mp (lists.within nodeId member))).score
  have stale : anchors.filter (graphNodeIsSuperseded · graph)
      = anchors.filter (graphNodeIsSuperseded · other) :=
    List.filter_congr fun nodeId member => (same nodeId (Or.inl member)).superseded
  simp only [rerankRecallWithTemporalGraphAndFacets, scores, stale, ← expansion]

/-! ## The named part of a graph -/

/-- Around the anchors nothing is left out of the indexes: every edge at a node within two steps
allows expansion and is at a node within one step, and no node within two steps is superseded in
the whole graph only.
-/
structure IndexComplete (graph : TemporalMemoryGraph) (anchors : List String) : Prop where
  edges : ∀ nodeId, ReachedInTwo graph anchors nodeId → ∀ edge ∈ graph.edges,
    edge.touches nodeId = true → graphEdgeAllowsRecallExpansion edge.kind = true
      ∧ ∃ near, ReachedInOne graph anchors near ∧ edge.touches near = true
  superseded : ∀ nodeId, ReachedInTwo graph anchors nodeId →
    graphNodeIsSuperseded nodeId graph
      = graphNodeIsSuperseded nodeId (indexedGraph graph anchors)

theorem node_indexedGraph {nodeId : String} (reached : ReachedInTwo graph anchors nodeId)
    : (indexedGraph graph anchors).node nodeId = graph.node nodeId := by
  rw [TemporalMemoryGraph.node, TemporalMemoryGraph.node, indexedGraph, List.find?_filter]
  refine List.find?_congr fun node member => ?_
  by_cases same : node.nodeId = nodeId
  · have named : nodeId ∈ namedNodeIds graph anchors :=
      mem_namedNodeIds.mpr ⟨reached, List.mem_map.mpr ⟨node, member, same⟩⟩
    simp [same, named]
  · simp [same]

theorem backlinks_indexedGraph {nodeId evidenceRef : String} {node : MemoryGraphNode}
    (reached : ReachedInTwo graph anchors nodeId) (found : graph.node nodeId = some node)
    (member : evidenceRef ∈ node.evidenceRefs)
    : (indexedGraph graph anchors).backlinks.filter (·.sourceId == evidenceRef)
      = graph.backlinks.filter (·.sourceId == evidenceRef) := by
  have inside := List.mem_of_find?_eq_some found
  have sameId : node.nodeId = nodeId := by simpa using List.find?_some found
  have named : node.nodeId ∈ namedNodeIds graph anchors :=
    mem_namedNodeIds.mpr ⟨sameId ▸ reached, List.mem_map.mpr ⟨node, inside, rfl⟩⟩
  have evidence : evidenceRef ∈ namedEvidence graph anchors :=
    List.mem_append_left _ (List.mem_flatMap.mpr
      ⟨node, List.mem_filter.mpr ⟨inside, by simpa using named⟩, member⟩)
  rw [indexedGraph, List.filter_filter]
  refine List.filter_congr fun backlink _ => ?_
  by_cases same : backlink.sourceId = evidenceRef
  · simp [same, evidence]
  · simp [same]

/-- Nothing is left out around a node exactly when its edges are the same. -/
theorem connectedEdges_indexedGraph {nodeId : String}
    : (indexedGraph graph anchors).connectedEdges nodeId = graph.connectedEdges nodeId
      ↔ ∀ edge ∈ graph.edges, edge.touches nodeId = true →
          edge ∈ (indexedGraph graph anchors).edges := by
  rw [TemporalMemoryGraph.connectedEdges, TemporalMemoryGraph.connectedEdges]
  constructor
  · intro same edge member touches
    have listed : edge ∈ graph.edges.filter (·.touches nodeId) :=
      List.mem_filter.mpr ⟨member, touches⟩
    rw [← same] at listed
    exact (List.mem_filter.mp listed).1
  · intro all
    rw [indexedGraph, List.filter_filter]
    refine List.filter_congr fun edge member => ?_
    cases touches : edge.touches nodeId with
    | false => simp
    | true => simpa using (List.mem_filter.mp (all edge member touches)).2

/-- A complete index looks like the whole graph at every node within two steps. -/
theorem IndexComplete.sameAt (complete : IndexComplete graph anchors)
    (distinct : (graph.edges.map (·.edgeId)).Nodup) {nodeId : String}
    (reached : ReachedInTwo graph anchors nodeId)
    : SameAt graph (indexedGraph graph anchors) nodeId := by
  refine ⟨(node_indexedGraph reached).symm, ?_, ?_, complete.superseded nodeId reached⟩
  · refine (connectedEdges_indexedGraph.mpr fun edge member touches => ?_).symm
    exact (mem_indexedGraph_edges distinct).mpr
      ⟨member, complete.edges nodeId reached edge member touches⟩
  · exact fun node found evidenceRef member =>
      (backlinks_indexedGraph reached found member).symm

/-! ## Indexes that leave something out -/

/-- So many edges at a node that their score reaches the end of its 32 bits. -/
def Crowded (graph : TemporalMemoryGraph) (nodeId : String) : Prop :=
  42949673 ≤ (graph.connectedEdges nodeId).length

theorem graphNeighborhoodScore_eq {nodeId : String} (few : ¬Crowded graph nodeId)
    : graphNeighborhoodScore nodeId graph = (graph.connectedEdges nodeId).length * 100 := by
  rw [Crowded] at few
  have small : (graph.connectedEdges nodeId).length < 2 ^ 32 := by omega
  rw [graphNeighborhoodScore, asU32, Nat.mod_eq_of_lt small, satMul, u32Max]
  omega

theorem connectedEdges_sublist (nodeId : String)
    : ((indexedGraph graph anchors).connectedEdges nodeId).Sublist
        (graph.connectedEdges nodeId) :=
  List.filter_sublist.filter _

/-- Equal scores at a node that is not crowded: nothing is left out there. -/
theorem sameEdges_of_score {nodeId : String} (few : ¬Crowded graph nodeId)
    (same : scoreOf tables query graph facetContext nodeId
      = scoreOf tables query (indexedGraph graph anchors) facetContext nodeId)
    : (indexedGraph graph anchors).connectedEdges nodeId = graph.connectedEdges nodeId
      ∧ graphNodeIsSuperseded nodeId graph
        = graphNodeIsSuperseded nodeId (indexedGraph graph anchors) := by
  have part : ((indexedGraph graph anchors).connectedEdges nodeId).Sublist _ :=
    connectedEdges_sublist nodeId
  constructor
  · have fewPart : ¬Crowded (indexedGraph graph anchors) nodeId := fun crowded =>
      few (le_trans crowded part.length_le)
    have counts : graphNeighborhoodScore nodeId graph
        = graphNeighborhoodScore nodeId (indexedGraph graph anchors) :=
      congrArg GraphRecallCandidateScore.graphNeighborhoodScore same
    rw [graphNeighborhoodScore_eq few, graphNeighborhoodScore_eq fewPart] at counts
    exact part.eq_of_length (by omega)
  · have penalties : (if graphNodeIsSuperseded nodeId graph then 10000 else 0)
        = if graphNodeIsSuperseded nodeId (indexedGraph graph anchors) then 10000 else 0 :=
      congrArg GraphRecallCandidateScore.staleSupersededPenalty same
    cases whole : graphNodeIsSuperseded nodeId graph <;>
      cases named : graphNodeIsSuperseded nodeId (indexedGraph graph anchors) <;>
        simp [whole, named] at penalties ⊢

/-- Equal rankings give every listed candidate the same score. -/
theorem score_of_rerank {budget : GraphRecallExpansionBudget} {nodeId : String}
    (same : rerankRecallWithTemporalGraphAndFacets tables query anchors graph budget facetContext
      = rerankRecallWithTemporalGraphAndFacets tables query anchors other budget facetContext)
    (listed : nodeId ∈ expandedIds tables query anchors graph facetContext budget)
    : scoreOf tables query graph facetContext nodeId
      = scoreOf tables query other facetContext nodeId := by
  have breakdown := congrArg GraphRecallRerankReport.scoreBreakdown same
  have member : scoreOf tables query graph facetContext nodeId
      ∈ (rerankRecallWithTemporalGraphAndFacets tables query anchors graph budget
        facetContext).scoreBreakdown :=
    (List.mem_insertionSort _).mpr (List.mem_map.mpr ⟨nodeId, listed, rfl⟩)
  rw [breakdown] at member
  obtain ⟨otherId, -, found⟩ := List.mem_map.mp ((List.mem_insertionSort _).mp member)
  have sameId : otherId = nodeId := congrArg GraphRecallCandidateScore.candidateId found
  rw [← sameId] at found ⊢
  exact found.symm

/-- Equal rankings for a budget without limits: nothing is left out, unless a node is crowded. -/
theorem IndexComplete.of_rerank (distinct : (graph.edges.map (·.edgeId)).Nodup)
    (few : ∀ nodeId, ReachedInTwo graph anchors nodeId → ¬Crowded graph nodeId)
    (same : ∀ budget, rerankRecallWithTemporalGraphAndFacets tables query anchors graph budget
        facetContext
      = rerankRecallWithTemporalGraphAndFacets tables query anchors (indexedGraph graph anchors)
          budget facetContext)
    : IndexComplete graph anchors := by
  have wide : WithoutLimits graph anchors
      { maxHops := 2, maxNeighborsPerCandidate := graph.edges.length
        maxExpandedCandidates := anchors.length + 2 * graph.edges.length } :=
    ⟨rfl, le_rfl, le_rfl⟩
  have unlimited : Unlimited
      (fun id => graphExpansionNeighbors tables query id graph facetContext) anchors _ :=
    wide.unlimited
  have equal : ∀ nodeId, ReachedInTwo graph anchors nodeId → _ := fun nodeId reached =>
    sameEdges_of_score (few nodeId reached) (score_of_rerank (same _)
      ((mem_expandAlong_unlimited unlimited).mpr (withinTwo_iff.mpr reached)))
  refine ⟨fun nodeId reached edge member touches => ?_, fun nodeId reached =>
    (equal nodeId reached).2⟩
  have named := connectedEdges_indexedGraph.mp (equal nodeId reached).1 edge member touches
  exact ((mem_indexedGraph_edges distinct).mp named).2

/-- Texts and hashes that all are the same. -/
def constantCodec : GraphCodec where
  sha256 _ _ := "0"
  nodeText _ := ""
  edgeText _ := ""
  backlinkText _ := ""
  nodeMembershipText _ := ""
  edgeMembershipText _ := ""
  backlinkMembershipText _ := ""
  recallIndexText _ := ""
  revisionText _ := ""
  manifestText _ := ""
  revisionInputText _ := ""

def sampleNode (nodeId : String) : MemoryGraphNode :=
  { nodeId, kind := .concept, label := "l", evidenceRefs := ["r"] }

def sampleOwner : GovernedMemoryOwnerRef := ⟨.longTerm, "o"⟩

def sampleBinding (nodeId : String) : MemoryGraphOwnerBinding :=
  { nodeId, ownerRef := sampleOwner, ownerRevision := 1, visible := true }

/-- Nodes with one backlink for their evidence. -/
def sampleGraph (nodeIds : List String) (edges : List MemoryGraphEdge) : TemporalMemoryGraph :=
  { nodes := nodeIds.map sampleNode, edges
    backlinks := [{ sourceKind := "k", sourceId := "r", fingerprint := "f" }] }

end BeetleMemory.Graph
