import BeetleMemory.Graph.Score
import Mathlib.Data.List.Destutter
import Mathlib.Data.List.Sort
import Mathlib.Data.String.Basic

/-! Expansion of recall candidates along a graph, within a budget, and their ranking by score.
The budget fits machine words; counts of candidates stay below them.
-/

namespace BeetleMemory.Graph

variable (tables : TextTables)

/-! ## Neighbours -/

def graphEdgeAllowsRecallExpansion (kind : MemoryGraphEdgeKind) : Bool :=
  match kind with
  | .supports | .supersedes | .derivedFrom | .relationshipBoundary => true
  | .conflicts | .relatesTo | .usedByProcedure => false

/-- The other end of an edge at the node. -/
def otherEnd (nodeId : String) (edge : MemoryGraphEdge) : Option String :=
  if edge.fromNodeId = nodeId then some edge.toNodeId
  else if edge.toNodeId = nodeId then some edge.fromNodeId
  else none

/-- The order of neighbours: by score and by rank, both decreasing, then by name. -/
def NeighborBefore (score rank : String → Nat) (left right : String) : Prop :=
  score right < score left
    ∨ score right = score left ∧ (rank right < rank left ∨ rank right = rank left ∧ left ≤ right)

instance (score rank : String → Nat) (left right : String)
    : Decidable (NeighborBefore score rank left right) :=
  inferInstanceAs (Decidable (_ ∨ _))

def graphExpansionNeighbors (query nodeId : String) (graph : TemporalMemoryGraph)
    (facetContext : GraphFacetPropagationContext)
    : List String :=
  let neighbors := (graph.edges.filter fun edge => graphEdgeAllowsRecallExpansion edge.kind)
    |>.filterMap (otherEnd nodeId)
  (neighbors.insertionSort (NeighborBefore
    (fun id => (graphRecallCandidateScoreWithFacets tables query id graph facetContext).totalScore)
    (fun id => graphNodeRank id graph))).destutter (· ≠ ·)

/-! ## Expansion -/

def neighborBudgetExhausted : String := "graph_expansion_neighbor_budget_exhausted"

def candidateBudgetExhausted : String := "graph_expansion_candidate_budget_exhausted"

def secondHopRequiresBudget : String := "graph_expansion_second_hop_requires_budget"

/-- What the loops change: the candidates so far, those added in this hop, and what was cut. -/
structure ExpansionState where
  expandedCandidateIds : List String
  nextFrontier : List String
  truncatedCandidateCount : Nat
  blockedReasons : List String
deriving DecidableEq, Repr

/-- Some candidates are cut, for a reason. -/
def ExpansionState.cut (state : ExpansionState) (count : Nat) (reason : String)
    : ExpansionState :=
  { state with
    truncatedCandidateCount := state.truncatedCandidateCount + count
    blockedReasons := pushUnique state.blockedReasons reason }

/-- One neighbour within the limit of its source. -/
def visitNeighbor (maxExpanded : Nat) (state : ExpansionState) (neighborId : String)
    : ExpansionState :=
  if state.expandedCandidateIds.contains neighborId then state
  else if maxExpanded ≤ state.expandedCandidateIds.length then
    state.cut 1 candidateBudgetExhausted
  else
    { state with
      expandedCandidateIds := state.expandedCandidateIds ++ [neighborId]
      nextFrontier := state.nextFrontier ++ [neighborId] }

/-- The loop over the neighbours of a source, from an index on. -/
def visitNeighbors (maxNeighbors maxExpanded : Nat)
    : Nat → List String → ExpansionState → ExpansionState
  | _, [], state => state
  | neighborIndex, neighborId :: rest, state =>
      if maxNeighbors ≤ neighborIndex then
        state.cut (rest.length + 1) neighborBudgetExhausted
      else
        visitNeighbors maxNeighbors maxExpanded (neighborIndex + 1) rest
          (visitNeighbor maxExpanded state neighborId)

def visitSource (maxNeighbors maxExpanded : Nat) (neighbors : String → List String)
    (state : ExpansionState) (sourceId : String)
    : ExpansionState :=
  if maxNeighbors = 0 ∧ neighbors sourceId ≠ [] then
    state.cut (neighbors sourceId).length neighborBudgetExhausted
  else visitNeighbors maxNeighbors maxExpanded 0 (neighbors sourceId) state

/-- One hop from a frontier. -/
def expandHop (maxNeighbors maxExpanded : Nat) (neighbors : String → List String)
    (frontier : List String) (state : ExpansionState)
    : ExpansionState :=
  frontier.foldl (visitSource maxNeighbors maxExpanded neighbors)
    { state with nextFrontier := [] }

structure GraphRecallExpansionBudgetReport where
  maxHops : Nat
  maxNeighborsPerCandidate : Nat
  maxExpandedCandidates : Nat
  sourceCandidateCount : Nat
  expandedCandidateCount : Nat
  hop1CandidateCount : Nat
  hop2CandidateCount : Nat
  truncatedCandidateCount : Nat
  profileBudgetApplied : Bool
  blockedReasons : List String
deriving DecidableEq, Repr

structure GraphRecallExpansion where
  expandedCandidateIds : List String
  graphNeighborIds : List String
  budgetReport : GraphRecallExpansionBudgetReport
deriving DecidableEq, Repr

/-- The distinct candidates in order. -/
def distinctSources (candidateIds : List String) : List String :=
  candidateIds.foldl pushUnique []

/-- The state after each of the hops that are allowed, at most two. -/
def runHops (maxHops maxNeighbors maxExpanded : Nat) (neighbors : String → List String)
    (sources : List String)
    : ExpansionState × List String × List String :=
  let start : ExpansionState :=
    { expandedCandidateIds := sources, nextFrontier := [], truncatedCandidateCount := 0
      blockedReasons := [] }
  if maxHops = 0 then (start, [], [])
  else
    let first := expandHop maxNeighbors maxExpanded neighbors sources start
    if maxHops = 1 then (first, first.nextFrontier, [])
    else
      let second := expandHop maxNeighbors maxExpanded neighbors first.nextFrontier first
      (second, first.nextFrontier, second.nextFrontier)

/-- Expansion along any neighbours. -/
def expandAlong (neighbors : String → List String) (candidateIds : List String)
    (budget : GraphRecallExpansionBudget)
    : GraphRecallExpansion :=
  let maxHops := min budget.maxHops 2
  let maxExpanded := max budget.maxExpandedCandidates candidateIds.length
  let (state, hop1Frontier, hop2Frontier) := runHops maxHops budget.maxNeighborsPerCandidate
    maxExpanded neighbors (distinctSources candidateIds)
  let expanded := state.expandedCandidateIds
  let blockedReasons :=
    if maxHops < 2 ∧ ∃ nodeId ∈ hop1Frontier, ∃ neighborId ∈ neighbors nodeId,
        neighborId ∉ expanded then
      pushUnique state.blockedReasons secondHopRequiresBudget
    else state.blockedReasons
  { expandedCandidateIds := expanded
    graphNeighborIds := ((expanded.filter (· ∉ candidateIds)).insertionSort (· ≤ ·)).destutter
      (· ≠ ·)
    budgetReport :=
      { maxHops
        maxNeighborsPerCandidate := budget.maxNeighborsPerCandidate
        maxExpandedCandidates := maxExpanded
        sourceCandidateCount := candidateIds.length
        expandedCandidateCount := expanded.length
        hop1CandidateCount := hop1Frontier.length
        hop2CandidateCount := hop2Frontier.length
        truncatedCandidateCount := state.truncatedCandidateCount
        profileBudgetApplied := !blockedReasons.isEmpty
        blockedReasons } }

def expandRecallCandidates (query : String) (candidateIds : List String)
    (graph : TemporalMemoryGraph) (budget : GraphRecallExpansionBudget)
    (facetContext : GraphFacetPropagationContext)
    : GraphRecallExpansion :=
  expandAlong (fun nodeId => graphExpansionNeighbors tables query nodeId graph facetContext)
    candidateIds budget

/-! ## Ranking -/

structure GraphRecallRerankReport where
  query : String
  candidateIds : List String
  expandedCandidateIds : List String
  graphNeighborIds : List String
  rerankedCandidateIds : List String
  scoreBreakdown : List GraphRecallCandidateScore
  expansionBudget : GraphRecallExpansionBudgetReport
  staleFalsePositiveCount : Nat
deriving DecidableEq, Repr

/-- The order of the ranking: by decreasing total, then by name. -/
def RanksBefore (left right : GraphRecallCandidateScore) : Prop :=
  right.totalScore < left.totalScore
    ∨ right.totalScore = left.totalScore ∧ left.candidateId ≤ right.candidateId

instance (left right : GraphRecallCandidateScore) : Decidable (RanksBefore left right) :=
  inferInstanceAs (Decidable (_ ∨ _))

def rerankRecallWithTemporalGraphAndFacets (query : String) (candidateIds : List String)
    (graph : TemporalMemoryGraph) (expansionBudget : GraphRecallExpansionBudget)
    (facetContext : GraphFacetPropagationContext)
    : GraphRecallRerankReport :=
  let expansion :=
    expandRecallCandidates tables query candidateIds graph expansionBudget facetContext
  let scoreBreakdown := (expansion.expandedCandidateIds.map fun candidateId =>
    graphRecallCandidateScoreWithFacets tables query candidateId graph facetContext).insertionSort
      RanksBefore
  { query, candidateIds
    expandedCandidateIds := expansion.expandedCandidateIds
    graphNeighborIds := expansion.graphNeighborIds
    rerankedCandidateIds := scoreBreakdown.map (·.candidateId)
    scoreBreakdown
    expansionBudget := expansion.budgetReport
    staleFalsePositiveCount :=
      asU32 (candidateIds.filter (graphNodeIsSuperseded · graph)).length }

end BeetleMemory.Graph
