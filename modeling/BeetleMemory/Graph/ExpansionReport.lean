import BeetleMemory.Graph.ExpansionFacts

/-! What a whole expansion lists, and when the report of its budget is true: the neighbour limit
is reported whenever a list of neighbours is cut, even if all of them are listed anyway, and
nothing is reported when no hop is allowed.
-/

namespace BeetleMemory.Graph

variable {neighbors : String → List String} {candidateIds : List String}
  {budget : GraphRecallExpansionBudget}

/-- What an expansion has listed so far, after one hop or two. -/
structure Lists (neighbors : String → List String) (candidateIds : List String)
    (limit : Nat) (expanded : List String)
    : Prop where
  sources : distinctSources candidateIds <+: expanded
  nodup : expanded.Nodup
  length : expanded.length ≤ limit
  within : ∀ nodeId ∈ expanded, WithinTwo neighbors candidateIds nodeId

theorem lists_sources
    : Lists neighbors candidateIds (candidateLimit candidateIds budget)
        (distinctSources candidateIds) := by
  refine ⟨List.prefix_refl _, distinctSources_nodup _, ?_, fun nodeId member => ?_⟩
  · exact (distinctSources_length _).trans (le_max_right _ _)
  · exact Or.inl (mem_distinctSources.mp member)

/-- What the first hop adds is one step from a source. -/
theorem firstHop_frontier {nodeId : String}
    (member : nodeId ∈ (firstHop neighbors candidateIds budget).nextFrontier)
    : ∃ sourceId ∈ candidateIds, nodeId ∈ neighbors sourceId := by
  obtain ⟨sourceId, listed, inside⟩ :=
    List.mem_flatMap.mp ((firstHop_grows neighbors candidateIds budget).2 member)
  exact ⟨sourceId, mem_distinctSources.mp listed, inside⟩

theorem firstHop_expanded
    : (firstHop neighbors candidateIds budget).expandedCandidateIds
      = distinctSources candidateIds
        ++ (firstHop neighbors candidateIds budget).nextFrontier :=
  (firstHop_grows neighbors candidateIds budget).1.expanded

theorem lists_firstHop
    : Lists neighbors candidateIds (candidateLimit candidateIds budget)
        (firstHop neighbors candidateIds budget).expandedCandidateIds := by
  have start : Lists neighbors candidateIds (candidateLimit candidateIds budget) _ :=
    lists_sources
  have grows := (firstHop_grows neighbors candidateIds budget).1
  refine ⟨firstHop_expanded ▸ List.prefix_append _ _, grows.nodup start.nodup,
    grows.bounded start.length, fun nodeId member => ?_⟩
  rw [firstHop_expanded] at member
  rcases List.mem_append.mp member with source | added
  · exact start.within nodeId source
  · obtain ⟨sourceId, listed, inside⟩ := firstHop_frontier added
    exact Or.inr ⟨sourceId, listed, Or.inl inside⟩

theorem lists_secondHop
    : Lists neighbors candidateIds (candidateLimit candidateIds budget)
        (secondHop neighbors candidateIds budget).expandedCandidateIds := by
  have first : Lists neighbors candidateIds (candidateLimit candidateIds budget)
      (firstHop neighbors candidateIds budget).expandedCandidateIds := lists_firstHop
  obtain ⟨added, looked, grows⟩ := (secondHop_visited neighbors candidateIds budget).grows
  refine ⟨?_, grows.nodup first.nodup, grows.bounded first.length, fun nodeId member => ?_⟩
  · rw [grows.expanded]
    exact first.sources.trans (List.prefix_append _ _)
  · rw [grows.expanded] at member
    rcases List.mem_append.mp member with old | new
    · exact first.within nodeId old
    · obtain ⟨between, frontier, inside⟩ := List.mem_flatMap.mp (looked new)
      obtain ⟨sourceId, listed, step⟩ := firstHop_frontier frontier
      exact Or.inr ⟨sourceId, listed, Or.inr ⟨between, step, inside⟩⟩

theorem lists_expandAlong
    : Lists neighbors candidateIds (candidateLimit candidateIds budget)
        (expandAlong neighbors candidateIds budget).expandedCandidateIds := by
  rcases Nat.lt_or_ge budget.maxHops 2 with few | two
  · interval_cases hops : budget.maxHops
    · rw [(expandAlong_zero _ _ hops).1]
      exact lists_sources
    · rw [(expandAlong_one _ _ hops).1]
      exact lists_firstHop
  · rw [(expandAlong_two _ _ two).1]
    exact lists_secondHop

/-! ## The report -/

/-- A list of neighbours that the expansion looks at is longer than the neighbour limit. -/
def ListCut (neighbors : String → List String) (candidateIds : List String)
    (budget : GraphRecallExpansionBudget)
    : Prop :=
  (∃ sourceId ∈ candidateIds, budget.maxNeighborsPerCandidate < (neighbors sourceId).length)
    ∨ 2 ≤ budget.maxHops ∧ ∃ nodeId ∈ (firstHop neighbors candidateIds budget).nextFrontier,
        budget.maxNeighborsPerCandidate < (neighbors nodeId).length

/-- A node within two steps is not listed. -/
def Further (neighbors : String → List String) (candidateIds : List String)
    (budget : GraphRecallExpansionBudget)
    : Prop :=
  ∃ nodeId, WithinTwo neighbors candidateIds nodeId
    ∧ nodeId ∉ (expandAlong neighbors candidateIds budget).expandedCandidateIds

/-- Why the first hop reports something. -/
theorem firstHop_reason {reason : String}
    (member : reason ∈ (firstHop neighbors candidateIds budget).blockedReasons)
    : (∃ sourceId ∈ candidateIds,
        budget.maxNeighborsPerCandidate < (neighbors sourceId).length)
      ∨ Full (candidateLimit candidateIds budget) (firstHop neighbors candidateIds budget)
        ∧ ∃ nodeId, WithinTwo neighbors candidateIds nodeId
          ∧ nodeId ∉ (firstHop neighbors candidateIds budget).expandedCandidateIds := by
  rcases (firstHop_visited neighbors candidateIds budget).reasons reason member with
    before | ⟨-, sourceId, listed, long⟩ | ⟨-, full, nodeId, looked, out⟩
  · simp [startState] at before
  · exact Or.inl ⟨sourceId, mem_distinctSources.mp listed, long⟩
  · obtain ⟨sourceId, listed, inside⟩ := List.mem_flatMap.mp looked
    exact Or.inr ⟨full, nodeId,
      Or.inr ⟨sourceId, mem_distinctSources.mp listed, Or.inl inside⟩, out⟩

/-- Without a reason, the first hop lists all neighbours of the sources. -/
theorem firstHop_complete (clear : (firstHop neighbors candidateIds budget).blockedReasons = [])
    {sourceId nodeId : String} (source : sourceId ∈ candidateIds)
    (step : nodeId ∈ neighbors sourceId)
    : nodeId ∈ (firstHop neighbors candidateIds budget).expandedCandidateIds :=
  (firstHop_visited neighbors candidateIds budget).complete clear
    (List.mem_flatMap.mpr ⟨sourceId, mem_distinctSources.mpr source, step⟩)

/-- All nodes within two steps are listed once the neighbours of the first frontier are. -/
theorem complete_of_firstHop {expanded : List String}
    (clear : (firstHop neighbors candidateIds budget).blockedReasons = [])
    (first : (firstHop neighbors candidateIds budget).expandedCandidateIds ⊆ expanded)
    (second : ∀ between ∈ (firstHop neighbors candidateIds budget).nextFrontier,
      ∀ nodeId ∈ neighbors between, nodeId ∈ expanded)
    : ∀ nodeId, WithinTwo neighbors candidateIds nodeId → nodeId ∈ expanded := by
  have start : distinctSources candidateIds
      ⊆ (firstHop neighbors candidateIds budget).expandedCandidateIds :=
    firstHop_expanded ▸ List.subset_append_left _ _
  rintro nodeId (source | ⟨sourceId, source, step | ⟨between, step, inside⟩⟩)
  · exact first (start (mem_distinctSources.mpr source))
  · exact first (firstHop_complete clear source step)
  · have listed := firstHop_complete clear source step
    rw [firstHop_expanded] at listed
    rcases List.mem_append.mp listed with isSource | frontier
    · exact first (firstHop_complete clear (mem_distinctSources.mp isSource) inside)
    · exact second between frontier nodeId inside

theorem applied_iff_one (hops : budget.maxHops = 1)
    : (expandAlong neighbors candidateIds budget).budgetReport.profileBudgetApplied = true
      ↔ ListCut neighbors candidateIds budget ∨ Further neighbors candidateIds budget := by
  obtain ⟨expanded, applied⟩ := expandAlong_one neighbors candidateIds hops
  rw [applied, Further, expanded]
  constructor
  · rintro (blocked | ⟨between, frontier, nodeId, step, out⟩)
    · obtain ⟨reason, member⟩ := List.exists_mem_of_ne_nil _ blocked
      rcases firstHop_reason member with cut | ⟨-, further⟩
      · exact Or.inl (Or.inl cut)
      · exact Or.inr further
    · obtain ⟨sourceId, source, first⟩ := firstHop_frontier frontier
      exact Or.inr ⟨nodeId, Or.inr ⟨sourceId, source, Or.inr ⟨between, first, step⟩⟩, out⟩
  · rintro ((⟨sourceId, source, long⟩ | ⟨two, -⟩) | ⟨nodeId, within, out⟩)
    · refine Or.inl (List.ne_nil_of_mem
        ((firstHop_visited neighbors candidateIds budget).cutReported ?_))
      exact ⟨sourceId, mem_distinctSources.mpr source, long⟩
    · omega
    · by_contra quiet
      obtain ⟨clear, nothing⟩ := not_or.mp quiet
      refine out (complete_of_firstHop (not_not.mp clear) (List.Subset.refl _) ?_ nodeId within)
      intro between frontier other step
      by_contra missing
      exact nothing ⟨between, frontier, other, step, missing⟩

/-- Why two hops report something. -/
theorem secondHop_reason (hops : 2 ≤ budget.maxHops) {reason : String}
    (member : reason ∈ (secondHop neighbors candidateIds budget).blockedReasons)
    : ListCut neighbors candidateIds budget
      ∨ Full (candidateLimit candidateIds budget) (secondHop neighbors candidateIds budget)
        ∧ ∃ nodeId, WithinTwo neighbors candidateIds nodeId
          ∧ nodeId ∉ (secondHop neighbors candidateIds budget).expandedCandidateIds := by
  have visited := secondHop_visited neighbors candidateIds budget
  obtain ⟨added, -, grows⟩ := visited.grows
  rcases visited.reasons reason member with before | ⟨-, long⟩ | ⟨-, full, nodeId, looked, out⟩
  · rcases firstHop_reason before with cut | ⟨full, nodeId, within, out⟩
    · exact Or.inl (Or.inl cut)
    · have unchanged := grows.full_same full
      refine Or.inr ⟨?_, nodeId, within, unchanged ▸ out⟩
      rw [Full, unchanged]
      exact full
  · exact Or.inl (Or.inr ⟨hops, long⟩)
  · obtain ⟨between, frontier, step⟩ := List.mem_flatMap.mp looked
    obtain ⟨sourceId, source, first⟩ := firstHop_frontier frontier
    exact Or.inr ⟨full, nodeId, Or.inr ⟨sourceId, source, Or.inr ⟨between, first, step⟩⟩, out⟩

theorem applied_iff_two (hops : 2 ≤ budget.maxHops)
    : (expandAlong neighbors candidateIds budget).budgetReport.profileBudgetApplied = true
      ↔ ListCut neighbors candidateIds budget ∨ Further neighbors candidateIds budget := by
  obtain ⟨expanded, applied⟩ := expandAlong_two neighbors candidateIds hops
  have visited := secondHop_visited neighbors candidateIds budget
  obtain ⟨added, -, grows⟩ := visited.grows
  rw [applied, Further, expanded]
  constructor
  · intro blocked
    obtain ⟨reason, member⟩ := List.exists_mem_of_ne_nil _ blocked
    exact (secondHop_reason hops member).imp_right And.right
  · rintro ((⟨sourceId, source, long⟩ | ⟨-, long⟩) | ⟨nodeId, within, out⟩)
    · refine List.ne_nil_of_mem (grows.blocked
        ((firstHop_visited neighbors candidateIds budget).cutReported ?_))
      exact ⟨sourceId, mem_distinctSources.mpr source, long⟩
    · exact List.ne_nil_of_mem (visited.cutReported long)
    · intro clear
      have clearFirst : (firstHop neighbors candidateIds budget).blockedReasons = [] :=
        List.subset_nil.mp (clear ▸ grows.blocked)
      refine out (complete_of_firstHop clearFirst grows.subset ?_ nodeId within)
      intro between frontier other step
      exact visited.complete clear (List.mem_flatMap.mpr ⟨between, frontier, step⟩)

/-- With at least one hop, a report says that a list of neighbours was cut or that a node within
two steps is missing.
-/
theorem applied_iff (hops : budget.maxHops ≠ 0)
    : (expandAlong neighbors candidateIds budget).budgetReport.profileBudgetApplied = true
      ↔ ListCut neighbors candidateIds budget ∨ Further neighbors candidateIds budget := by
  rcases Nat.lt_or_ge budget.maxHops 2 with few | two
  · exact applied_iff_one (by omega)
  · exact applied_iff_two two

/-! ## Other budgets -/

/-- A lower candidate limit lists a beginning of the same candidates. -/
theorem expandAlong_lower {limit : Nat} (lower : limit ≤ budget.maxExpandedCandidates)
    : (expandAlong neighbors candidateIds
        { budget with maxExpandedCandidates := limit }).expandedCandidateIds
      <+: (expandAlong neighbors candidateIds budget).expandedCandidateIds := by
  set less : GraphRecallExpansionBudget := { budget with maxExpandedCandidates := limit }
  have sameHops : less.maxHops = budget.maxHops := rfl
  have limits : candidateLimit candidateIds less ≤ candidateLimit candidateIds budget :=
    max_le_max_right _ lower
  have first : Lockstep (candidateLimit candidateIds less)
      (firstHop neighbors candidateIds less) (firstHop neighbors candidateIds budget) :=
    expandHop_lockstep limits _ rfl
  obtain hops | hops | two : budget.maxHops = 0 ∨ budget.maxHops = 1 ∨ 2 ≤ budget.maxHops := by
    omega
  · rw [(expandAlong_zero _ _ (sameHops.trans hops)).1, (expandAlong_zero _ _ hops).1]
  · rw [(expandAlong_one _ _ (sameHops.trans hops)).1, (expandAlong_one _ _ hops).1]
    exact first.start
  · rw [(expandAlong_two _ _ (sameHops ▸ two)).1, (expandAlong_two _ _ two).1]
    have second : Lockstep (candidateLimit candidateIds less)
        (secondHop neighbors candidateIds less) (secondHop neighbors candidateIds budget) := by
      cases first with
      | same expanded frontier =>
          rw [secondHop, secondHop, frontier]
          exact expandHop_lockstep limits _ expanded
      | ahead full start =>
          have visitedLess := secondHop_visited neighbors candidateIds less
          have visited := secondHop_visited neighbors candidateIds budget
          refine Lockstep.ahead_of_visited ?_ ?_ visitedLess visited
          · exact full
          · exact start
    exact second.start

/-- No limit matters: two hops, and limits that no list of neighbours or candidates passes. -/
structure Unlimited (neighbors : String → List String) (candidateIds : List String)
    (wide : GraphRecallExpansionBudget)
    : Prop where
  hops : 2 ≤ wide.maxHops
  lists : ∀ nodeId, (neighbors nodeId).length ≤ wide.maxNeighborsPerCandidate
  candidates : ∀ nodeIds : List String, nodeIds.Nodup
    → (∀ nodeId ∈ nodeIds, WithinTwo neighbors candidateIds nodeId)
    → nodeIds.length ≤ wide.maxExpandedCandidates

/-- Without limits exactly the nodes within two steps are listed. -/
theorem mem_expandAlong_unlimited {wide : GraphRecallExpansionBudget}
    (unlimited : Unlimited neighbors candidateIds wide) {nodeId : String}
    : nodeId ∈ (expandAlong neighbors candidateIds wide).expandedCandidateIds
      ↔ WithinTwo neighbors candidateIds nodeId := by
  have lists : Lists neighbors candidateIds (candidateLimit candidateIds wide)
      (expandAlong neighbors candidateIds wide).expandedCandidateIds := lists_expandAlong
  refine ⟨lists.within nodeId, fun within => ?_⟩
  by_contra out
  obtain ⟨expanded, applied⟩ := expandAlong_two neighbors candidateIds unlimited.hops
  have blocked := applied.mp ((applied_iff_two unlimited.hops).mpr (Or.inr ⟨nodeId, within, out⟩))
  obtain ⟨reason, member⟩ := List.exists_mem_of_ne_nil _ blocked
  rcases secondHop_reason unlimited.hops member with cut | ⟨full, other, near, missing⟩
  · rcases cut with ⟨sourceId, -, long⟩ | ⟨-, between, -, long⟩
    · exact absurd (unlimited.lists sourceId) (not_le.mpr long)
    · exact absurd (unlimited.lists between) (not_le.mpr long)
  · rw [expanded] at lists
    have room := unlimited.candidates
      (other :: (secondHop neighbors candidateIds wide).expandedCandidateIds)
      (List.nodup_cons.mpr ⟨missing, lists.nodup⟩) fun id inside => by
        rcases List.mem_cons.mp inside with rfl | listed
        · exact near
        · exact lists.within id listed
    have most : wide.maxExpandedCandidates ≤ candidateLimit candidateIds wide := le_max_left _ _
    rw [Full] at full
    rw [List.length_cons] at room
    omega

end BeetleMemory.Graph
