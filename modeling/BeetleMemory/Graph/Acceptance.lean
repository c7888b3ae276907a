import BeetleMemory.Graph.Persistence
import BeetleMemory.Graph.ExpansionBudget

/-! What it means that a graph is accepted: the failures of the planner, one by one. -/

namespace BeetleMemory.Graph

open LongTerm (trim GovernedMemoryOwnerRef)
open Keyed (lookup sortBy)

variable {tables : TextTables} {codec : GraphCodec}

/-! ## Sorted sets -/

@[simp]
theorem mem_sortDedup {texts : List String} {text : String}
    : text ∈ sortDedup texts ↔ text ∈ texts := by
  rw [sortDedup, Keyed.mem_destutter, List.mem_insertionSort]

theorem sortDedup_eq_nil {texts : List String} : sortDedup texts = [] ↔ texts = [] := by
  constructor
  · intro none
    refine List.eq_nil_iff_forall_not_mem.mpr fun text member => ?_
    simpa [none] using mem_sortDedup.mpr member
  · rintro rfl
    rfl

/-! ## Failures -/

@[simp]
theorem failWhen_eq_nil {condition : Bool} {failure : String}
    : failWhen condition failure = [] ↔ condition = false := by
  cases condition <;> simp [failWhen]

theorem duplicateFailures_eq_nil {failure : String} {seen values : List String}
    : duplicateFailures failure seen values = []
      ↔ values.Nodup ∧ ∀ value ∈ values, value ∉ seen := by
  induction values generalizing seen with
  | nil => simp [duplicateFailures]
  | cons value rest ih =>
      rw [duplicateFailures, List.append_eq_nil_iff, failWhen_eq_nil, ih, List.nodup_cons]
      simp only [List.contains_eq_mem, decide_eq_false_iff_not, List.mem_cons, not_or,
        forall_eq_or_imp]
      constructor
      · rintro ⟨fresh, distinct, later⟩
        exact ⟨⟨fun member => (later value member).1 rfl, distinct⟩, fresh,
          fun other member => (later other member).2⟩
      · rintro ⟨⟨first, distinct⟩, fresh, later⟩
        exact ⟨fresh, distinct, fun other member =>
          ⟨fun same => first (same ▸ member), later other member⟩⟩

/-- With consistent revisions, bindings of one owner agree. -/
theorem ownerRevisionFailures_eq_nil {earlier bindings : List MemoryGraphOwnerBinding}
    (none : ownerRevisionFailures earlier bindings = [])
    (consistent : ∀ first ∈ earlier, ∀ second ∈ earlier, first.ownerRef = second.ownerRef
      → first.ownerRevision = second.ownerRevision)
    : ∀ first ∈ earlier ++ bindings, ∀ second ∈ earlier ++ bindings,
        first.ownerRef = second.ownerRef → first.ownerRevision = second.ownerRevision := by
  induction bindings generalizing earlier with
  | nil => simpa using consistent
  | cons owner rest ih =>
      rw [ownerRevisionFailures, List.append_eq_nil_iff, failWhen_eq_nil] at none
      have agrees : ∀ other ∈ earlier, other.ownerRef = owner.ownerRef →
          other.ownerRevision = owner.ownerRevision := by
        intro other member same
        cases found : lookup (·.ownerRef) earlier owner.ownerRef with
        | none => exact absurd same (Keyed.lookup_eq_none_iff.mp found other member)
        | some last =>
            obtain ⟨inside, sameLast⟩ := Keyed.lookup_some found
            have equal : last.ownerRevision = owner.ownerRevision := by
              simpa [found] using none.1
            exact (consistent other member last inside (same.trans sameLast.symm)).trans equal
      have next := ih none.2 (by
        intro first inFirst second inSecond same
        rcases List.mem_append.mp inFirst with old | new
        · rcases List.mem_append.mp inSecond with older | newer
          · exact consistent first old second older same
          · obtain rfl := List.mem_singleton.mp newer
            exact agrees first old same
        · obtain rfl := List.mem_singleton.mp new
          rcases List.mem_append.mp inSecond with older | newer
          · exact (agrees second older same.symm).symm
          · rw [List.mem_singleton.mp newer])
      simpa using next

/-- The owner of a node that is accepted. -/
def OwnerAccepted (owner : MemoryGraphOwnerBinding) : Prop :=
  owner.ownerRef.isValid = true ∧ owner.visible = true ∧ owner.ownerRevision ≠ 0

theorem nodeOwnerFailures_eq_nil {owner : Option MemoryGraphOwnerBinding}
    (none : nodeOwnerFailures owner = [])
    : ∃ binding, owner = some binding ∧ OwnerAccepted binding := by
  cases owner with
  | none => simp [nodeOwnerFailures] at none
  | some binding =>
      refine ⟨binding, rfl, ?_⟩
      simp only [nodeOwnerFailures] at none
      split_ifs at none with identity visible revision
      simp only [Bool.or_eq_true, Bool.not_eq_true', not_or, Bool.not_eq_false] at identity visible
      exact ⟨identity.1, visible, revision⟩

/-! ## Accepted graphs -/

/-- What the planner has checked of a graph it accepts. -/
structure AcceptedGraph (codec : GraphCodec) (input : PlanInput) : Prop where
  endpoints : ∀ edge ∈ input.graph.edges, edge.fromNodeId ∈ input.graph.nodes.map (·.nodeId)
    ∧ edge.toNodeId ∈ input.graph.nodes.map (·.nodeId)
  memorySpace : input.memorySpaceId ≠ ""
  mountedSubject : input.mountedSubjectId ≠ ""
  generation : input.manifestGeneration ≠ 0
  nodeIds : (input.graph.nodes.map (·.nodeId)).Nodup
  edgeIds : (input.graph.edges.map (·.edgeId)).Nodup
  backlinkKeys : (input.graph.backlinks.map (memoryGraphBacklinkKey codec)).Nodup
  ownerNodes : (input.ownerBindings.map (·.nodeId)).Nodup
  revisions : ∀ first ∈ input.ownerBindings, ∀ second ∈ input.ownerBindings,
    first.ownerRef = second.ownerRef → first.ownerRevision = second.ownerRevision
  owned : ∀ node ∈ input.graph.nodes,
    ∃ owner, input.ownerOf node.nodeId = some owner ∧ OwnerAccepted owner

theorem accepted_of_persistenceFailures {input : PlanInput}
    (none : persistenceFailures tables codec input.memorySpaceId input.mountedSubjectId
      input.manifestGeneration input.graph input.ownerBindings = [])
    : AcceptedGraph codec input := by
  simp only [persistenceFailures, temporalMemoryGraphWriteGate, List.append_eq_nil_iff,
    failWhen_eq_nil, duplicateFailures_eq_nil, List.flatMap_eq_nil_iff, Bool.not_eq_false',
    List.contains_eq_mem, decide_eq_true_eq] at none
  obtain ⟨⟨⟨⟨⟨⟨⟨⟨⟨gate, space⟩, subject⟩, generation⟩, nodeIds⟩, edgeIds⟩, backlinkKeys⟩,
    ownerNodes⟩, revisions⟩, owned⟩ := none
  refine ⟨gate.2, ?_, ?_, ?_, nodeIds.1, edgeIds.1, backlinkKeys.1, ownerNodes.1, ?_, ?_⟩
  · rintro same
    simp [same] at space
  · rintro same
    simp [same] at subject
  · simpa using generation
  · exact ownerRevisionFailures_eq_nil revisions (by simp)
  · exact fun node member => nodeOwnerFailures_eq_nil (owned node member)

variable {memorySpaceId mountedSubjectId : String} {manifestGeneration : Nat}
  {graph : TemporalMemoryGraph} {ownerBindings : List MemoryGraphOwnerBinding}

/-- The input of a plan, with trimmed names. -/
def planInput (memorySpaceId mountedSubjectId : String) (manifestGeneration : Nat)
    (graph : TemporalMemoryGraph) (ownerBindings : List MemoryGraphOwnerBinding)
    : PlanInput :=
  { memorySpaceId := trim memorySpaceId, mountedSubjectId := trim mountedSubjectId
    manifestGeneration, graph, ownerBindings }

/-- An accepted plan is the one built from its input. -/
theorem plan_of_accepted
    (accepted : (buildMemoryGraphPersistencePlan tables codec memorySpaceId mountedSubjectId
      manifestGeneration graph ownerBindings).accepted = true)
    : let input := planInput memorySpaceId mountedSubjectId manifestGeneration graph ownerBindings
      AcceptedGraph codec input
        ∧ buildMemoryGraphPersistencePlan tables codec memorySpaceId mountedSubjectId
            manifestGeneration graph ownerBindings
          = { accepted := true
              failures := []
              scopeManifest := some (input.scopeManifest codec)
              revision := some (input.revisionDoc codec)
              nodeMemberships := input.nodeMemberships codec
              edgeMemberships := input.edgeMemberships codec
              backlinkMemberships := input.backlinkMemberships codec
              recallIndexes := input.recallIndexes codec } := by
  intro input
  simp only [buildMemoryGraphPersistencePlan] at accepted ⊢
  split_ifs at accepted ⊢ with failed
  simp only [Bool.not_eq_true', Bool.not_eq_false, List.isEmpty_iff, sortDedup_eq_nil] at failed
  exact ⟨accepted_of_persistenceFailures failed, rfl⟩

end BeetleMemory.Graph
