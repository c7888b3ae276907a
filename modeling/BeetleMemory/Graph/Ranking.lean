import BeetleMemory.Graph.ExpansionBudget

/-! The ranking of recall candidates. A superseded node loses a fixed penalty, so it comes after
its replacement exactly when its other terms do not make up for that.
-/

namespace BeetleMemory.Graph

variable {tables : TextTables} {query : String} {graph : TemporalMemoryGraph}
  {facetContext : GraphFacetPropagationContext}

/-- The first id comes before the second one in a ranking. -/
def RankedBefore (ids : List String) (first second : String) : Prop :=
  [first, second].Sublist ids

/-- Of two ids in a ranking, one comes before the other. -/
theorem rankedBefore_or {ids : List String} {first second : String} (inFirst : first ∈ ids)
    (inSecond : second ∈ ids) (different : first ≠ second)
    : RankedBefore ids first second ∨ RankedBefore ids second first := by
  obtain ⟨before, after, rfl⟩ := List.append_of_mem inFirst
  rcases List.mem_append.mp inSecond with early | late
  · exact Or.inr (List.Sublist.append (List.singleton_sublist.mpr early)
      (List.singleton_sublist.mpr (List.mem_cons_self ..)))
  · rcases List.mem_cons.mp late with same | later
    · exact absurd same.symm different
    · exact Or.inl (List.Sublist.trans
        (List.Sublist.cons_cons first (List.singleton_sublist.mpr later))
        (List.sublist_append_right _ _))

/-! ## The order of a ranking -/

instance : Std.Total RanksBefore where
  total left right := by
    rcases lt_trichotomy left.totalScore right.totalScore with less | same | more
    · exact Or.inr (Or.inl less)
    · rcases le_total left.candidateId right.candidateId with before | after
      · exact Or.inl (Or.inr ⟨same.symm, before⟩)
      · exact Or.inr (Or.inr ⟨same, after⟩)
    · exact Or.inl (Or.inl more)

instance : IsTrans GraphRecallCandidateScore RanksBefore where
  trans first second third := by
    rintro (above | ⟨same, before⟩) (higher | ⟨equal, after⟩)
    · exact Or.inl (higher.trans above)
    · exact Or.inl (equal ▸ above)
    · exact Or.inl (same ▸ higher)
    · exact Or.inr ⟨equal.trans same, before.trans after⟩

theorem RanksBefore.antisymm {left right : GraphRecallCandidateScore}
    (before : RanksBefore left right) (after : RanksBefore right left)
    : left.candidateId = right.candidateId := by
  rcases before with above | ⟨same, le⟩ <;> rcases after with below | ⟨equal, ge⟩
  · omega
  · omega
  · omega
  · exact le_antisymm le ge

/-- The score of a candidate. -/
abbrev scoreOf (tables : TextTables) (query : String) (graph : TemporalMemoryGraph)
    (facetContext : GraphFacetPropagationContext) (nodeId : String)
    : GraphRecallCandidateScore :=
  graphRecallCandidateScoreWithFacets tables query nodeId graph facetContext

theorem scoreOf_candidateId (nodeId : String)
    : (scoreOf tables query graph facetContext nodeId).candidateId = nodeId := rfl

/-- A ranking is ordered by the scores of its ids. -/
theorem reranked_pairwise {candidateIds : List String} {budget : GraphRecallExpansionBudget}
    : (rerankRecallWithTemporalGraphAndFacets tables query candidateIds graph budget
        facetContext).rerankedCandidateIds.Pairwise fun first second =>
          RanksBefore (scoreOf tables query graph facetContext first)
            (scoreOf tables query graph facetContext second) := by
  set scores := (expandRecallCandidates tables query candidateIds graph budget
    facetContext).expandedCandidateIds.map (scoreOf tables query graph facetContext)
  have sorted : (scores.insertionSort RanksBefore).Pairwise RanksBefore :=
    List.pairwise_insertionSort RanksBefore scores
  have own : ∀ score ∈ scores.insertionSort RanksBefore,
      scoreOf tables query graph facetContext score.candidateId = score := by
    intro score member
    obtain ⟨nodeId, -, rfl⟩ := List.mem_map.mp ((List.mem_insertionSort _).mp member)
    rfl
  refine List.pairwise_map.mpr (sorted.imp_of_mem fun {left right} inLeft inRight before => ?_)
  rw [own left inLeft, own right inRight]
  exact before

/-- In a ranking the order of two ids is the order of their scores. -/
theorem rankedBefore_iff {candidateIds : List String} {budget : GraphRecallExpansionBudget}
    {first second : String}
    (inFirst : first ∈ (rerankRecallWithTemporalGraphAndFacets tables query candidateIds graph
      budget facetContext).rerankedCandidateIds)
    (inSecond : second ∈ (rerankRecallWithTemporalGraphAndFacets tables query candidateIds graph
      budget facetContext).rerankedCandidateIds)
    (different : first ≠ second)
    : RankedBefore (rerankRecallWithTemporalGraphAndFacets tables query candidateIds graph budget
        facetContext).rerankedCandidateIds first second
      ↔ RanksBefore (scoreOf tables query graph facetContext first)
          (scoreOf tables query graph facetContext second) := by
  have ordered : ∀ {left right}, RankedBefore (rerankRecallWithTemporalGraphAndFacets tables query
      candidateIds graph budget facetContext).rerankedCandidateIds left right →
      RanksBefore (scoreOf tables query graph facetContext left)
        (scoreOf tables query graph facetContext right) := fun before =>
    List.rel_of_pairwise_cons (reranked_pairwise.sublist before) (by simp)
  refine ⟨ordered, fun before => ?_⟩
  rcases rankedBefore_or inFirst inSecond different with wanted | other
  · exact wanted
  · have same := RanksBefore.antisymm before (ordered other)
    rw [scoreOf_candidateId, scoreOf_candidateId] at same
    exact absurd same different

/-! ## A superseded node and its replacement -/

/-- The saturating sum of all terms of a node's score, before penalties. -/
def bonusOf (tables : TextTables) (query : String) (graph : TemporalMemoryGraph)
    (facetContext : GraphFacetPropagationContext) (nodeId : String)
    : Nat :=
  (scoreTerms tables query nodeId graph facetContext).bonus (supersedesBonus nodeId graph)

/-- What a superseded node loses. -/
def supersededPenalty (facetContext : GraphFacetPropagationContext) : Nat :=
  10000 + if facetContext.isEmpty then 0 else 2500

theorem totalScore_of_superseded {nodeId : String}
    (superseded : graphNodeIsSuperseded nodeId graph = true)
    : (scoreOf tables query graph facetContext nodeId).totalScore
      = bonusOf tables query graph facetContext nodeId - supersededPenalty facetContext := by
  have shape : (scoreOf tables query graph facetContext nodeId).totalScore
      = bonusOf tables query graph facetContext nodeId
        - (if !facetContext.isEmpty && graphNodeIsSuperseded nodeId graph then 2500 else 0)
        - (if graphNodeIsSuperseded nodeId graph then 10000 else 0) := rfl
  rw [shape, superseded, supersededPenalty]
  cases facetContext.isEmpty <;> simp
  omega

theorem totalScore_of_current {nodeId : String}
    (current : graphNodeIsSuperseded nodeId graph = false)
    : (scoreOf tables query graph facetContext nodeId).totalScore
      = bonusOf tables query graph facetContext nodeId := by
  have shape : (scoreOf tables query graph facetContext nodeId).totalScore
      = bonusOf tables query graph facetContext nodeId
        - (if !facetContext.isEmpty && graphNodeIsSuperseded nodeId graph then 2500 else 0)
        - (if graphNodeIsSuperseded nodeId graph then 10000 else 0) := rfl
  simp [shape, current]

/-- A replacement has some bonus. -/
theorem bonusOf_pos {nodeId : String} {edge : MemoryGraphEdge} (member : edge ∈ graph.edges)
    (supersedes : edge.kind = .supersedes) (starts : edge.fromNodeId = nodeId)
    : 0 < bonusOf tables query graph facetContext nodeId := by
  have bonus : supersedesBonus nodeId graph = 1000 := by
    have some : supersedesOther nodeId graph = true :=
      List.any_eq_true.mpr ⟨edge, member, by simp [supersedes, starts]⟩
    simp [supersedesBonus, some]
  simp only [bonusOf, bonus, GraphRecallCandidateScore.bonus, List.foldl_cons, List.foldl_nil]
  exact lt_min (by omega) (by decide)

/-- A replacement and what it supersedes. -/
def sampleReplacement : TemporalMemoryGraph :=
  { nodes := [], backlinks := [], edges := [sampleEdge "no" .supersedes "new" "old" 0] }

/-- The superseded node has two more edges, observed late. -/
def sampleBusyOld : TemporalMemoryGraph :=
  { nodes := [], backlinks := []
    edges := [sampleEdge "no" .supersedes "new" "old" 0,
      sampleEdge "ox" .supports "old" "x" 10000, sampleEdge "oy" .supports "old" "y" 10000] }

end BeetleMemory.Graph
