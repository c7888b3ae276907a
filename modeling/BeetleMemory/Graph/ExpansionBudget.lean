import BeetleMemory.Graph.ExpansionReport

/-! The budget of an expansion along the edges of a memory graph. -/

namespace BeetleMemory.Graph

variable {tables : TextTables} {query : String} {graph : TemporalMemoryGraph}
  {facetContext : GraphFacetPropagationContext}

/-! ## Neighbours in a graph -/

/-- An edge that allows expansion joins the two nodes. -/
def ExpandableStep (graph : TemporalMemoryGraph) (nodeId other : String) : Prop :=
  ∃ edge ∈ graph.edges, graphEdgeAllowsRecallExpansion edge.kind = true
    ∧ (edge.fromNodeId = nodeId ∧ edge.toNodeId = other
      ∨ edge.toNodeId = nodeId ∧ edge.fromNodeId = other)

theorem otherEnd_eq_some {nodeId other : String} {edge : MemoryGraphEdge}
    : otherEnd nodeId edge = some other
      ↔ edge.fromNodeId = nodeId ∧ edge.toNodeId = other
        ∨ edge.toNodeId = nodeId ∧ edge.fromNodeId = other := by
  rw [otherEnd]
  split_ifs with starts ends
  · simp only [Option.some.injEq, starts, true_and]
    constructor
    · exact Or.inl
    · rintro (same | ⟨loop, same⟩)
      · exact same
      · rw [loop, ← same]
  · simp [starts, ends]
  · simp [starts, ends]

theorem mem_graphExpansionNeighbors {nodeId other : String}
    : other ∈ graphExpansionNeighbors tables query nodeId graph facetContext
      ↔ ExpandableStep graph nodeId other := by
  simp only [graphExpansionNeighbors, Keyed.mem_destutter, List.mem_insertionSort, List.mem_filterMap,
    List.mem_filter, otherEnd_eq_some, ExpandableStep, and_assoc]

theorem graphExpansionNeighbors_length (nodeId : String)
    : (graphExpansionNeighbors tables query nodeId graph facetContext).length
      ≤ graph.edges.length := by
  refine (List.destutter_sublist _ _).length_le.trans ?_
  rw [List.length_insertionSort]
  exact (List.length_filterMap_le _ _).trans (List.length_filter_le _ _)

/-- At most two edges that allow expansion away from a candidate. -/
def ReachedInTwo (graph : TemporalMemoryGraph) (candidateIds : List String) (nodeId : String)
    : Prop :=
  nodeId ∈ candidateIds
    ∨ ∃ sourceId ∈ candidateIds, ExpandableStep graph sourceId nodeId
      ∨ ∃ between, ExpandableStep graph sourceId between ∧ ExpandableStep graph between nodeId

theorem withinTwo_iff {candidateIds : List String} {nodeId : String}
    : WithinTwo (fun id => graphExpansionNeighbors tables query id graph facetContext)
        candidateIds nodeId
      ↔ ReachedInTwo graph candidateIds nodeId := by
  simp only [WithinTwo, ReachedInTwo, mem_graphExpansionNeighbors]

/-- The budget has two hops and its limits are at least as large as the graph. -/
structure WithoutLimits (graph : TemporalMemoryGraph) (candidateIds : List String)
    (wide : GraphRecallExpansionBudget)
    : Prop where
  hops : wide.maxHops = 2
  neighbors : graph.edges.length ≤ wide.maxNeighborsPerCandidate
  candidates : candidateIds.length + 2 * graph.edges.length ≤ wide.maxExpandedCandidates

theorem reachedInTwo_mem {candidateIds : List String} {nodeId : String}
    (reached : ReachedInTwo graph candidateIds nodeId)
    : nodeId ∈ candidateIds ++ graph.edges.flatMap fun edge => [edge.fromNodeId, edge.toNodeId] := by
  have ends : ∀ sourceId, ExpandableStep graph sourceId nodeId →
      nodeId ∈ graph.edges.flatMap fun edge => [edge.fromNodeId, edge.toNodeId] := by
    rintro sourceId ⟨edge, member, -, ⟨-, rfl⟩ | ⟨-, rfl⟩⟩
    · exact List.mem_flatMap.mpr ⟨edge, member, by simp⟩
    · exact List.mem_flatMap.mpr ⟨edge, member, by simp⟩
  rcases reached with source | ⟨sourceId, -, step | ⟨between, -, step⟩⟩
  · exact List.mem_append_left _ source
  · exact List.mem_append_right _ (ends sourceId step)
  · exact List.mem_append_right _ (ends between step)

theorem WithoutLimits.unlimited {candidateIds : List String} {wide : GraphRecallExpansionBudget}
    (without : WithoutLimits graph candidateIds wide)
    : Unlimited (fun id => graphExpansionNeighbors tables query id graph facetContext)
        candidateIds wide := by
  refine ⟨without.hops.ge, fun nodeId => ?_, fun nodeIds distinct reached => ?_⟩
  · exact (graphExpansionNeighbors_length nodeId).trans without.neighbors
  · have inside : nodeIds.Subperm
        (candidateIds ++ graph.edges.flatMap fun edge => [edge.fromNodeId, edge.toNodeId]) :=
      List.subperm_of_subset distinct fun id member =>
        reachedInTwo_mem (withinTwo_iff.mp (reached id member))
    have length := inside.length_le
    have ends : (graph.edges.flatMap fun edge => [edge.fromNodeId, edge.toNodeId]).length
        = 2 * graph.edges.length := by
      simp [List.length_flatMap, Nat.mul_comm]
    rw [List.length_append, ends] at length
    exact length.trans without.candidates

/-! ## Respecting the budget -/

/-- The candidates that the expansion lists. -/
def expandedIds (tables : TextTables) (query : String) (candidateIds : List String)
    (graph : TemporalMemoryGraph) (facetContext : GraphFacetPropagationContext)
    (budget : GraphRecallExpansionBudget)
    : List String :=
  (expandRecallCandidates tables query candidateIds graph budget
    facetContext).expandedCandidateIds

/-- The expansion keeps its budget and tells truthfully whether it cut anything. -/
structure RespectsBudget (tables : TextTables) (query : String) (candidateIds : List String)
    (graph : TemporalMemoryGraph) (budget : GraphRecallExpansionBudget)
    (facetContext : GraphFacetPropagationContext)
    : Prop where
  sources : candidateIds.eraseDups
    <+: expandedIds tables query candidateIds graph facetContext budget
  nodup : (expandedIds tables query candidateIds graph facetContext budget).Nodup
  length : (expandedIds tables query candidateIds graph facetContext budget).length
    ≤ max budget.maxExpandedCandidates candidateIds.length
  reached : ∀ nodeId ∈ expandedIds tables query candidateIds graph facetContext budget,
    ReachedInTwo graph candidateIds nodeId
  lower : ∀ limit ≤ budget.maxExpandedCandidates,
    expandedIds tables query candidateIds graph facetContext
        { budget with maxExpandedCandidates := limit }
      <+: expandedIds tables query candidateIds graph facetContext budget
  report : ∀ wide, WithoutLimits graph candidateIds wide →
    ((expandRecallCandidates tables query candidateIds graph budget
        facetContext).budgetReport.profileBudgetApplied = true
      ↔ ∃ nodeId ∈ expandedIds tables query candidateIds graph facetContext wide,
          nodeId ∉ expandedIds tables query candidateIds graph facetContext budget)

/-- The candidates whose neighbours the expansion looks at. -/
def LooksAt (tables : TextTables) (query : String) (candidateIds : List String)
    (graph : TemporalMemoryGraph) (budget : GraphRecallExpansionBudget)
    (facetContext : GraphFacetPropagationContext) (nodeId : String)
    : Prop :=
  nodeId ∈ candidateIds
    ∨ 2 ≤ budget.maxHops ∧ nodeId ∈ (firstHop
        (fun id => graphExpansionNeighbors tables query id graph facetContext) candidateIds
        budget).nextFrontier

/-- Without hops the candidates have no neighbours outside; with hops, a list of neighbours is
only cut when something that could be reached is missing.
-/
structure CutsOnlyFurther (tables : TextTables) (query : String) (candidateIds : List String)
    (graph : TemporalMemoryGraph) (budget : GraphRecallExpansionBudget)
    (facetContext : GraphFacetPropagationContext)
    : Prop where
  closed : budget.maxHops = 0 → ∀ sourceId ∈ candidateIds, ∀ nodeId,
    ExpandableStep graph sourceId nodeId → nodeId ∈ candidateIds
  missing : budget.maxHops ≠ 0 →
    (∃ nodeId, LooksAt tables query candidateIds graph budget facetContext nodeId
      ∧ budget.maxNeighborsPerCandidate
        < (graphExpansionNeighbors tables query nodeId graph facetContext).length) →
    ∃ nodeId, ReachedInTwo graph candidateIds nodeId
      ∧ nodeId ∉ expandedIds tables query candidateIds graph facetContext budget

theorem reached_of_closed {candidateIds : List String}
    (closed : ∀ sourceId ∈ candidateIds, ∀ nodeId,
      ExpandableStep graph sourceId nodeId → nodeId ∈ candidateIds)
    {nodeId : String} (reached : ReachedInTwo graph candidateIds nodeId)
    : nodeId ∈ candidateIds := by
  rcases reached with source | ⟨sourceId, source, step | ⟨between, step, next⟩⟩
  · exact source
  · exact closed sourceId source nodeId step
  · exact closed between (closed sourceId source between step) nodeId next

/-- Against a budget without limits, a further candidate is a missing node within two edges. -/
theorem exists_further_iff {candidateIds : List String} {budget wide : GraphRecallExpansionBudget}
    (without : WithoutLimits graph candidateIds wide)
    : (∃ nodeId ∈ expandedIds tables query candidateIds graph facetContext wide,
        nodeId ∉ expandedIds tables query candidateIds graph facetContext budget)
      ↔ ∃ nodeId, ReachedInTwo graph candidateIds nodeId
          ∧ nodeId ∉ expandedIds tables query candidateIds graph facetContext budget := by
  have unlimited : Unlimited
      (fun id => graphExpansionNeighbors tables query id graph facetContext) candidateIds wide :=
    without.unlimited
  refine exists_congr fun nodeId => and_congr_left fun _ => ?_
  exact (mem_expandAlong_unlimited unlimited).trans withinTwo_iff

/-- When the report is true. -/
theorem report_iff_cutsOnlyFurther {candidateIds : List String}
    {budget : GraphRecallExpansionBudget}
    : ((expandRecallCandidates tables query candidateIds graph budget
          facetContext).budgetReport.profileBudgetApplied = true
        ↔ ∃ nodeId, ReachedInTwo graph candidateIds nodeId
            ∧ nodeId ∉ expandedIds tables query candidateIds graph facetContext budget)
      ↔ CutsOnlyFurther tables query candidateIds graph budget facetContext := by
  by_cases hops : budget.maxHops = 0
  · obtain ⟨expanded, applied⟩ := expandAlong_zero
      (fun id => graphExpansionNeighbors tables query id graph facetContext) candidateIds hops
    have listed : ∀ nodeId,
        nodeId ∈ expandedIds tables query candidateIds graph facetContext budget
          ↔ nodeId ∈ candidateIds := fun nodeId => by
      rw [expandedIds, expandRecallCandidates, expanded, mem_distinctSources]
    rw [expandRecallCandidates, applied]
    simp only [Bool.false_eq_true, false_iff, not_exists, not_and, not_not, listed]
    constructor
    · intro all
      refine ⟨fun _ sourceId source nodeId step => ?_, fun some => absurd hops some⟩
      exact all nodeId (Or.inr ⟨sourceId, source, Or.inl step⟩)
    · intro cuts nodeId reached
      exact reached_of_closed (cuts.closed hops) reached
  · have applied : (expandRecallCandidates tables query candidateIds graph budget
        facetContext).budgetReport.profileBudgetApplied = true ↔ _ := applied_iff hops
    rw [applied, Further]
    simp only [withinTwo_iff]
    have cutIff : ListCut (fun id => graphExpansionNeighbors tables query id graph facetContext)
          candidateIds budget
        ↔ ∃ nodeId, LooksAt tables query candidateIds graph budget facetContext nodeId
          ∧ budget.maxNeighborsPerCandidate
            < (graphExpansionNeighbors tables query nodeId graph facetContext).length := by
      simp only [ListCut, LooksAt, or_and_right, exists_or, and_assoc, exists_and_left]
    rw [cutIff]
    constructor
    · intro truthful
      exact ⟨fun none => absurd none hops, fun _ cut => truthful.mp (Or.inl cut)⟩
    · intro cuts
      exact ⟨fun reported => reported.elim (cuts.missing hops) id, Or.inr⟩

/-- Plain character tables. -/
def asciiTables : TextTables where
  isAlphanumeric := isAsciiAlphanumeric
  toLowercase c := [c.toLower]
  sha256 text := text

/-- An edge of the given kind, observed at a time. -/
def sampleEdge (edgeId : String) (kind : MemoryGraphEdgeKind) (fromNodeId toNodeId : String)
    (observedAt : Nat)
    : MemoryGraphEdge :=
  { edgeId, kind, fromNodeId, toNodeId, evidenceRefs := ["r"]
    validity :=
      { validFrom := observedAt, validUntil := none, observedAt, supersededBy := none } }

/-- A candidate with two neighbours that are candidates too. -/
def sampleTriangle : TemporalMemoryGraph :=
  { nodes := [], backlinks := []
    edges := [sampleEdge "ab" .supports "a" "b" 1, sampleEdge "ac" .supports "a" "c" 1] }

end BeetleMemory.Graph
