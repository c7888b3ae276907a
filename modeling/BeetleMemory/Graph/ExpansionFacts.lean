import BeetleMemory.Graph.Expansion
import Mathlib

/-! What an expansion along any neighbours adds, and what its report says. Each visit of a
neighbour keeps the list of candidates, finds it full, or adds one candidate; the lemmas about
hops and whole expansions follow by induction over the visits.
-/

namespace BeetleMemory.Graph

variable {maxNeighbors maxExpanded : Nat} {neighbors : String → List String}

/-! ## Distinct sources -/

theorem mem_pushUnique {values : List String} {value other : String}
    : other ∈ pushUnique values value ↔ other ∈ values ∨ other = value := by
  rw [pushUnique]
  split_ifs with known
  · have inside : value ∈ values := by simpa using known
    constructor
    · exact Or.inl
    · rintro (old | rfl)
      · exact old
      · exact inside
  · simp

theorem subset_pushUnique (values : List String) (value : String)
    : values ⊆ pushUnique values value :=
  fun _ member => mem_pushUnique.mpr (Or.inl member)

theorem foldl_pushUnique (values acc : List String)
    : values.foldl pushUnique acc = acc ++ (values.filter (· ∉ acc)).eraseDups := by
  induction values generalizing acc with
  | nil => simp
  | cons value rest ih =>
      rw [List.foldl_cons, ih, pushUnique]
      by_cases known : value ∈ acc
      · simp [known]
      · have keep : rest.filter (· ∉ acc ++ [value])
            = (rest.filter (· ∉ acc)).filter (fun other => !(other == value)) := by
          rw [List.filter_filter]
          refine List.filter_congr fun other _ => ?_
          by_cases same : other = value <;> simp [same]
        rw [if_neg (by simpa using known), keep, List.filter_cons_of_pos (by simpa using known),
          List.eraseDups_cons, List.append_assoc, List.singleton_append]

theorem distinctSources_eq (candidateIds : List String)
    : distinctSources candidateIds = candidateIds.eraseDups := by
  simp [distinctSources, foldl_pushUnique]

theorem mem_foldl_pushUnique {values acc : List String} {value : String}
    : value ∈ values.foldl pushUnique acc ↔ value ∈ acc ∨ value ∈ values := by
  induction values generalizing acc with
  | nil => simp
  | cons first rest ih => rw [List.foldl_cons, ih, mem_pushUnique, List.mem_cons, or_assoc]

theorem nodup_foldl_pushUnique {values acc : List String} (distinct : acc.Nodup)
    : (values.foldl pushUnique acc).Nodup := by
  induction values generalizing acc with
  | nil => exact distinct
  | cons first rest ih =>
      refine ih ?_
      rw [pushUnique]
      split_ifs with known
      · exact distinct
      · have fresh : first ∉ acc := by simpa using known
        exact List.nodup_append.mpr ⟨distinct, by simp, fun a inA b inB same => by
          rw [List.mem_singleton.mp inB] at same
          exact fresh (same ▸ inA)⟩

theorem length_foldl_pushUnique (values acc : List String)
    : (values.foldl pushUnique acc).length ≤ acc.length + values.length := by
  induction values generalizing acc with
  | nil => simp
  | cons first rest ih =>
      refine (ih _).trans ?_
      rw [pushUnique]
      split_ifs <;> simp
      omega

theorem mem_distinctSources {candidateIds : List String} {value : String}
    : value ∈ distinctSources candidateIds ↔ value ∈ candidateIds := by
  simp [distinctSources, mem_foldl_pushUnique]

theorem distinctSources_nodup (candidateIds : List String)
    : (distinctSources candidateIds).Nodup :=
  nodup_foldl_pushUnique List.nodup_nil

theorem distinctSources_length (candidateIds : List String)
    : (distinctSources candidateIds).length ≤ candidateIds.length := by
  simpa [distinctSources] using length_foldl_pushUnique candidateIds []

/-! ## One visit -/

/-- A full list of candidates stays as it is. -/
def Full (maxExpanded : Nat) (state : ExpansionState) : Prop :=
  maxExpanded ≤ state.expandedCandidateIds.length

/-- Some candidates are added at the end, and also to the next frontier, while there is room. -/
structure Grows (maxExpanded : Nat) (before after : ExpansionState) (added : List String)
    : Prop where
  expanded : after.expandedCandidateIds = before.expandedCandidateIds ++ added
  frontier : after.nextFrontier = before.nextFrontier ++ added
  nodup : before.expandedCandidateIds.Nodup → after.expandedCandidateIds.Nodup
  bounded : before.expandedCandidateIds.length ≤ maxExpanded
    → after.expandedCandidateIds.length ≤ maxExpanded
  full : Full maxExpanded before → added = []
  blocked : before.blockedReasons ⊆ after.blockedReasons

namespace Grows

variable {before after : ExpansionState} {added : List String}

theorem refl (state : ExpansionState) : Grows maxExpanded state state [] :=
  ⟨by simp, by simp, id, id, fun _ => rfl, List.Subset.refl _⟩

theorem cut (state : ExpansionState) (count : Nat) (reason : String)
    : Grows maxExpanded state (state.cut count reason) [] :=
  ⟨by simp [ExpansionState.cut], by simp [ExpansionState.cut], id, id, fun _ => rfl,
    subset_pushUnique _ _⟩

theorem subset (grows : Grows maxExpanded before after added)
    : before.expandedCandidateIds ⊆ after.expandedCandidateIds := by
  rw [grows.expanded]
  exact List.subset_append_left _ _

theorem full_same (grows : Grows maxExpanded before after added) (full : Full maxExpanded before)
    : after.expandedCandidateIds = before.expandedCandidateIds := by
  rw [grows.expanded, grows.full full, List.append_nil]

theorem trans {third : ExpansionState} {more : List String}
    (grows : Grows maxExpanded before after added) (next : Grows maxExpanded after third more)
    : Grows maxExpanded before third (added ++ more) := by
  refine ⟨?_, ?_, next.nodup ∘ grows.nodup, next.bounded ∘ grows.bounded, fun full => ?_, ?_⟩
  · rw [next.expanded, grows.expanded, List.append_assoc]
  · rw [next.frontier, grows.frontier, List.append_assoc]
  · have still : Full maxExpanded after := by
      rw [Full, grows.full_same full]
      exact full
    rw [grows.full full, next.full still, List.append_nil]
  · exact List.Subset.trans grows.blocked next.blocked

end Grows

/-- Neighbours were looked at, perhaps with some lists cut. Every reason has its cause: a cut
list, or a neighbour that did not fit any more. Without a reason all neighbours are listed.
-/
structure Visited (maxExpanded : Nat) (before after : ExpansionState) (looked : List String)
    (cut : Prop)
    : Prop where
  grows : ∃ added ⊆ looked, Grows maxExpanded before after added
  reasons : ∀ reason ∈ after.blockedReasons, reason ∈ before.blockedReasons
    ∨ reason = neighborBudgetExhausted ∧ cut
    ∨ reason = candidateBudgetExhausted ∧ Full maxExpanded after
      ∧ ∃ neighborId ∈ looked, neighborId ∉ after.expandedCandidateIds
  cutReported : cut → neighborBudgetExhausted ∈ after.blockedReasons
  complete : after.blockedReasons = [] → looked ⊆ after.expandedCandidateIds

namespace Visited

variable {before after third : ExpansionState} {looked more : List String} {cut cutMore : Prop}

theorem none (state : ExpansionState) : Visited maxExpanded state state [] False :=
  ⟨⟨[], by simp, .refl state⟩, fun _ member => Or.inl member, False.elim, by simp⟩

theorem trans (visited : Visited maxExpanded before after looked cut)
    (next : Visited maxExpanded after third more cutMore)
    : Visited maxExpanded before third (looked ++ more) (cut ∨ cutMore) := by
  obtain ⟨added, within, grows⟩ := visited.grows
  obtain ⟨later, withinLater, growsLater⟩ := next.grows
  refine ⟨⟨added ++ later, ?_, grows.trans growsLater⟩, ?_, ?_, ?_⟩
  · exact List.append_subset.mpr ⟨List.subset_append_of_subset_left _ within,
      List.subset_append_of_subset_right _ withinLater⟩
  · intro reason member
    rcases next.reasons reason member with old | ⟨same, list⟩ | ⟨same, full, id, inside, out⟩
    · rcases visited.reasons reason old with older | ⟨same, list⟩ | ⟨same, full, id, inside, out⟩
      · exact Or.inl older
      · exact Or.inr (Or.inl ⟨same, Or.inl list⟩)
      · have unchanged := growsLater.full_same full
        refine Or.inr (Or.inr ⟨same, ?_, id, List.mem_append_left _ inside, ?_⟩)
        · rw [Full, unchanged]
          exact full
        · rwa [unchanged]
    · exact Or.inr (Or.inl ⟨same, Or.inr list⟩)
    · exact Or.inr (Or.inr ⟨same, full, id, List.mem_append_right _ inside, out⟩)
  · rintro (first | second)
    · exact growsLater.blocked (visited.cutReported first)
    · exact next.cutReported second
  · intro clear
    have clearBefore : after.blockedReasons = [] :=
      List.subset_nil.mp (clear ▸ growsLater.blocked)
    refine List.append_subset.mpr ⟨?_, next.complete clear⟩
    exact List.Subset.trans (visited.complete clearBefore) growsLater.subset

/-- The rest of a list is cut. -/
theorem cutRest (state : ExpansionState) (count : Nat) (rest : List String)
    : Visited maxExpanded state (state.cut count neighborBudgetExhausted) rest True := by
  have reported : neighborBudgetExhausted
      ∈ (state.cut count neighborBudgetExhausted).blockedReasons :=
    mem_pushUnique.mpr (Or.inr rfl)
  refine ⟨⟨[], by simp, .cut state count _⟩, fun reason member => ?_, fun _ => reported, ?_⟩
  · rcases mem_pushUnique.mp member with old | same
    · exact Or.inl old
    · exact Or.inr (Or.inl ⟨same, trivial⟩)
  · intro clear
    simp [clear] at reported

theorem congr_cut (visited : Visited maxExpanded before after looked cut) (same : cut ↔ cutMore)
    : Visited maxExpanded before after looked cutMore :=
  propext same ▸ visited

end Visited

/-- What a visit of a neighbour can do. -/
theorem visitNeighbor_cases (maxExpanded : Nat) (state : ExpansionState) (neighborId : String)
    : neighborId ∈ state.expandedCandidateIds
        ∧ visitNeighbor maxExpanded state neighborId = state
      ∨ neighborId ∉ state.expandedCandidateIds ∧ Full maxExpanded state
        ∧ visitNeighbor maxExpanded state neighborId = state.cut 1 candidateBudgetExhausted
      ∨ neighborId ∉ state.expandedCandidateIds ∧ ¬Full maxExpanded state
        ∧ visitNeighbor maxExpanded state neighborId
          = { state with
              expandedCandidateIds := state.expandedCandidateIds ++ [neighborId]
              nextFrontier := state.nextFrontier ++ [neighborId] } := by
  by_cases known : neighborId ∈ state.expandedCandidateIds
  · exact Or.inl ⟨known, by simp [visitNeighbor, known]⟩
  · by_cases full : maxExpanded ≤ state.expandedCandidateIds.length
    · exact Or.inr (Or.inl ⟨known, full, by simp [visitNeighbor, known, full]⟩)
    · exact Or.inr (Or.inr ⟨known, full, by simp [visitNeighbor, known, full]⟩)

theorem visitNeighbor_visited (maxExpanded : Nat) (state : ExpansionState)
    (neighborId : String)
    : Visited maxExpanded state (visitNeighbor maxExpanded state neighborId) [neighborId]
        False := by
  rcases visitNeighbor_cases maxExpanded state neighborId with
    ⟨known, same⟩ | ⟨fresh, full, same⟩ | ⟨fresh, room, same⟩ <;> rw [same]
  · exact ⟨⟨[], by simp, .refl state⟩, fun _ member => Or.inl member, False.elim,
      fun _ => by simpa using known⟩
  · have reported : candidateBudgetExhausted
        ∈ (state.cut 1 candidateBudgetExhausted).blockedReasons :=
      mem_pushUnique.mpr (Or.inr rfl)
    refine ⟨⟨[], by simp, .cut state 1 _⟩, fun reason member => ?_, False.elim, ?_⟩
    · rcases mem_pushUnique.mp member with old | same
      · exact Or.inl old
      · exact Or.inr (Or.inr ⟨same, full, neighborId, by simp, fresh⟩)
    · intro clear
      simp [clear] at reported
  · refine ⟨⟨[neighborId], List.Subset.refl _, ⟨rfl, rfl, ?_, ?_, ?_, List.Subset.refl _⟩⟩,
      fun _ member => Or.inl member, False.elim, fun _ => by simp⟩
    · intro distinct
      refine List.nodup_append.mpr ⟨distinct, by simp, fun a inA b inB equal => ?_⟩
      rw [List.mem_singleton.mp inB] at equal
      exact fresh (equal ▸ inA)
    · intro _
      have below := not_le.mp room
      simpa using below
    · exact fun full => absurd full room

/-! ## Hops -/

theorem visitNeighbors_visited {index : Nat} (inside : index ≤ maxNeighbors)
    (list : List String) (state : ExpansionState)
    : Visited maxExpanded state (visitNeighbors maxNeighbors maxExpanded index list state) list
        (maxNeighbors < index + list.length) := by
  induction list generalizing index state with
  | nil => exact (Visited.none state).congr_cut (by simp; omega)
  | cons neighborId rest ih =>
      rw [visitNeighbors]
      split_ifs with atLimit
      · exact (Visited.cutRest state _ _).congr_cut (by simp; omega)
      · have first := visitNeighbor_visited maxExpanded state neighborId
        have later := ih (by omega : index + 1 ≤ maxNeighbors)
          (visitNeighbor maxExpanded state neighborId)
        exact (first.trans later).congr_cut (by simp; omega)

theorem visitSource_visited (maxNeighbors maxExpanded : Nat) (neighbors : String → List String)
    (state : ExpansionState) (sourceId : String)
    : Visited maxExpanded state (visitSource maxNeighbors maxExpanded neighbors state sourceId)
        (neighbors sourceId) (maxNeighbors < (neighbors sourceId).length) := by
  rw [visitSource]
  split_ifs with nothing
  · refine (Visited.cutRest state _ _).congr_cut ?_
    have positive := List.length_pos_iff.mpr nothing.2
    simpa [nothing.1] using positive
  · exact (visitNeighbors_visited (Nat.zero_le _) _ _).congr_cut (by simp)

/-- One hop looks at all neighbours of the frontier. -/
theorem expandHop_visited (maxNeighbors maxExpanded : Nat) (neighbors : String → List String)
    (frontier : List String) (state : ExpansionState)
    : Visited maxExpanded { state with nextFrontier := [] }
        (expandHop maxNeighbors maxExpanded neighbors frontier state)
        (frontier.flatMap neighbors)
        (∃ sourceId ∈ frontier, maxNeighbors < (neighbors sourceId).length) := by
  rw [expandHop]
  generalize { state with nextFrontier := [] } = start
  induction frontier generalizing start with
  | nil => exact (Visited.none start).congr_cut (by simp)
  | cons sourceId rest ih =>
      have first := visitSource_visited maxNeighbors maxExpanded neighbors start sourceId
      have later := ih (visitSource maxNeighbors maxExpanded neighbors start sourceId)
      exact (first.trans later).congr_cut (by simp)

/-! ## Lower limits -/

/-- Two expansions with a lower and a higher limit: they agree, or the first is full and has the
beginning of the second.
-/
inductive Lockstep (low : Nat) (first second : ExpansionState) : Prop where
  | same (expanded : first.expandedCandidateIds = second.expandedCandidateIds)
      (frontier : first.nextFrontier = second.nextFrontier)
  | ahead (full : Full low first)
      (start : first.expandedCandidateIds <+: second.expandedCandidateIds)

variable {low high : Nat} {first second firstAfter secondAfter : ExpansionState}

theorem Lockstep.start (lockstep : Lockstep low first second)
    : first.expandedCandidateIds <+: second.expandedCandidateIds := by
  cases lockstep with
  | same expanded _ => exact expanded ▸ List.prefix_refl _
  | ahead _ start => exact start

/-- Once the first is full, whatever the two visit. -/
theorem Lockstep.ahead_of_visited {looked more : List String} {cut cutMore : Prop}
    (full : Full low first) (start : first.expandedCandidateIds <+: second.expandedCandidateIds)
    (visitedFirst : Visited low first firstAfter looked cut)
    (visitedSecond : Visited high second secondAfter more cutMore)
    : Lockstep low firstAfter secondAfter := by
  obtain ⟨_, _, growsFirst⟩ := visitedFirst.grows
  obtain ⟨_, _, growsSecond⟩ := visitedSecond.grows
  have unchanged := growsFirst.full_same full
  refine .ahead ?_ ?_
  · rw [Full, unchanged]
    exact full
  · rw [unchanged, growsSecond.expanded]
    exact start.trans (List.prefix_append _ _)

theorem visitNeighbor_lockstep (lower : low ≤ high) (lockstep : Lockstep low first second)
    (neighborId : String)
    : Lockstep low (visitNeighbor low first neighborId)
        (visitNeighbor high second neighborId) := by
  have visitedFirst := visitNeighbor_visited low first neighborId
  have visitedSecond := visitNeighbor_visited high second neighborId
  cases lockstep with
  | ahead full start => exact .ahead_of_visited full start visitedFirst visitedSecond
  | same expanded frontier =>
      by_cases full : Full low first
      · exact .ahead_of_visited full (expanded ▸ List.prefix_refl _) visitedFirst visitedSecond
      · have room : ¬Full high second := by
          rw [Full, ← expanded]
          exact fun more => full (lower.trans more)
        simp only [Full, expanded] at full room
        by_cases known : neighborId ∈ second.expandedCandidateIds
        · refine .same ?_ ?_ <;> simp [visitNeighbor, known, expanded, frontier]
        · refine .same ?_ ?_ <;>
            simp [visitNeighbor, known, full, room, expanded, frontier]

theorem visitNeighbors_lockstep (lower : low ≤ high) {index : Nat}
    (list : List String) (lockstep : Lockstep low first second)
    : Lockstep low (visitNeighbors maxNeighbors low index list first)
        (visitNeighbors maxNeighbors high index list second) := by
  induction list generalizing index first second with
  | nil => exact lockstep
  | cons neighborId rest ih =>
      rw [visitNeighbors, visitNeighbors]
      split_ifs
      · cases lockstep with
        | same expanded frontier => exact .same expanded frontier
        | ahead full start => exact .ahead full start
      · exact ih (visitNeighbor_lockstep lower lockstep neighborId)

/-- A hop from the same frontier. -/
theorem expandHop_lockstep (lower : low ≤ high) (frontier : List String)
    (same : first.expandedCandidateIds = second.expandedCandidateIds)
    : Lockstep low (expandHop maxNeighbors low neighbors frontier first)
        (expandHop maxNeighbors high neighbors frontier second) := by
  have begin : Lockstep low { first with nextFrontier := [] }
      { second with nextFrontier := [] } := .same same rfl
  rw [expandHop, expandHop]
  generalize { first with nextFrontier := [] } = firstState at begin ⊢
  generalize { second with nextFrontier := [] } = secondState at begin ⊢
  induction frontier generalizing firstState secondState with
  | nil => exact begin
  | cons sourceId rest ih =>
      refine ih _ _ ?_
      rw [visitSource, visitSource]
      split_ifs
      · cases begin with
        | same expanded frontier => exact .same expanded frontier
        | ahead full start => exact .ahead full start
      · exact visitNeighbors_lockstep lower _ begin

/-! ## Whole expansions -/

/-- At most two steps from one of the candidates. -/
def WithinTwo (neighbors : String → List String) (candidateIds : List String) (nodeId : String)
    : Prop :=
  nodeId ∈ candidateIds
    ∨ ∃ sourceId ∈ candidateIds, nodeId ∈ neighbors sourceId
      ∨ ∃ between ∈ neighbors sourceId, nodeId ∈ neighbors between

def startState (candidateIds : List String) : ExpansionState :=
  { expandedCandidateIds := distinctSources candidateIds, nextFrontier := []
    truncatedCandidateCount := 0, blockedReasons := [] }

/-- The most candidates an expansion may list. -/
def candidateLimit (candidateIds : List String) (budget : GraphRecallExpansionBudget) : Nat :=
  max budget.maxExpandedCandidates candidateIds.length

def firstHop (neighbors : String → List String) (candidateIds : List String)
    (budget : GraphRecallExpansionBudget)
    : ExpansionState :=
  expandHop budget.maxNeighborsPerCandidate (candidateLimit candidateIds budget) neighbors
    (distinctSources candidateIds) (startState candidateIds)

def secondHop (neighbors : String → List String) (candidateIds : List String)
    (budget : GraphRecallExpansionBudget)
    : ExpansionState :=
  expandHop budget.maxNeighborsPerCandidate (candidateLimit candidateIds budget) neighbors
    (firstHop neighbors candidateIds budget).nextFrontier
    (firstHop neighbors candidateIds budget)

/-- A second hop that is not allowed would add a candidate. -/
def SecondHopMissing (neighbors : String → List String) (candidateIds : List String)
    (budget : GraphRecallExpansionBudget)
    : Prop :=
  ∃ nodeId ∈ (firstHop neighbors candidateIds budget).nextFrontier,
    ∃ neighborId ∈ neighbors nodeId,
      neighborId ∉ (firstHop neighbors candidateIds budget).expandedCandidateIds

variable {candidateIds : List String} {budget : GraphRecallExpansionBudget}

theorem expandAlong_zero (neighbors : String → List String) (candidateIds : List String)
    (hops : budget.maxHops = 0)
    : (expandAlong neighbors candidateIds budget).expandedCandidateIds
        = distinctSources candidateIds
      ∧ (expandAlong neighbors candidateIds budget).budgetReport.profileBudgetApplied
        = false := by
  simp [expandAlong, runHops, hops]

theorem expandAlong_one (neighbors : String → List String) (candidateIds : List String)
    (hops : budget.maxHops = 1)
    : (expandAlong neighbors candidateIds budget).expandedCandidateIds
        = (firstHop neighbors candidateIds budget).expandedCandidateIds
      ∧ ((expandAlong neighbors candidateIds budget).budgetReport.profileBudgetApplied = true
        ↔ (firstHop neighbors candidateIds budget).blockedReasons ≠ []
          ∨ SecondHopMissing neighbors candidateIds budget) := by
  have shape : runHops 1 budget.maxNeighborsPerCandidate (candidateLimit candidateIds budget)
      neighbors (distinctSources candidateIds)
      = (firstHop neighbors candidateIds budget,
          (firstHop neighbors candidateIds budget).nextFrontier, []) := rfl
  simp only [candidateLimit] at shape
  simp only [expandAlong, hops, Nat.min_eq_left one_le_two, shape, Nat.one_lt_two, true_and]
  split_ifs with missing
  · have filled : pushUnique (firstHop neighbors candidateIds budget).blockedReasons
        secondHopRequiresBudget ≠ [] := by
      intro none
      have member := mem_pushUnique.mpr (Or.inr rfl : secondHopRequiresBudget
        ∈ (firstHop neighbors candidateIds budget).blockedReasons ∨ _)
      simp [none] at member
    have reported : SecondHopMissing neighbors candidateIds budget := missing
    simp [filled, reported]
  · have not : ¬SecondHopMissing neighbors candidateIds budget := missing
    simp [not]

theorem expandAlong_two (neighbors : String → List String) (candidateIds : List String)
    (hops : 2 ≤ budget.maxHops)
    : (expandAlong neighbors candidateIds budget).expandedCandidateIds
        = (secondHop neighbors candidateIds budget).expandedCandidateIds
      ∧ ((expandAlong neighbors candidateIds budget).budgetReport.profileBudgetApplied = true
        ↔ (secondHop neighbors candidateIds budget).blockedReasons ≠ []) := by
  have shape : runHops 2 budget.maxNeighborsPerCandidate (candidateLimit candidateIds budget)
      neighbors (distinctSources candidateIds)
      = (secondHop neighbors candidateIds budget,
          (firstHop neighbors candidateIds budget).nextFrontier,
          (secondHop neighbors candidateIds budget).nextFrontier) := rfl
  simp only [candidateLimit] at shape
  simp only [expandAlong, Nat.min_eq_right hops, shape]
  simp

theorem firstHop_visited (neighbors : String → List String) (candidateIds : List String)
    (budget : GraphRecallExpansionBudget)
    : Visited (candidateLimit candidateIds budget) (startState candidateIds)
        (firstHop neighbors candidateIds budget)
        ((distinctSources candidateIds).flatMap neighbors)
        (∃ sourceId ∈ distinctSources candidateIds,
          budget.maxNeighborsPerCandidate < (neighbors sourceId).length) :=
  expandHop_visited _ _ _ _ (startState candidateIds)

theorem secondHop_visited (neighbors : String → List String) (candidateIds : List String)
    (budget : GraphRecallExpansionBudget)
    : Visited (candidateLimit candidateIds budget)
        { firstHop neighbors candidateIds budget with nextFrontier := [] }
        (secondHop neighbors candidateIds budget)
        ((firstHop neighbors candidateIds budget).nextFrontier.flatMap neighbors)
        (∃ sourceId ∈ (firstHop neighbors candidateIds budget).nextFrontier,
          budget.maxNeighborsPerCandidate < (neighbors sourceId).length) :=
  expandHop_visited _ _ _ _ _

/-- The first hop adds its new frontier to the sources. -/
theorem firstHop_grows (neighbors : String → List String) (candidateIds : List String)
    (budget : GraphRecallExpansionBudget)
    : Grows (candidateLimit candidateIds budget) (startState candidateIds)
        (firstHop neighbors candidateIds budget)
        (firstHop neighbors candidateIds budget).nextFrontier
      ∧ (firstHop neighbors candidateIds budget).nextFrontier
        ⊆ (distinctSources candidateIds).flatMap neighbors := by
  obtain ⟨added, within, grows⟩ := (firstHop_visited neighbors candidateIds budget).grows
  have same : (firstHop neighbors candidateIds budget).nextFrontier = added := by
    simpa [startState] using grows.frontier
  rw [same]
  exact ⟨grows, within⟩

end BeetleMemory.Graph
