import BeetleMemory.LongTerm.Manifest
import BeetleMemory.LongTerm.Timeline
import BeetleMemory.Lib.Fallible
import BeetleMemory.Lib.Digests

/-! What the builder of a scope manifest accepts and what it builds. The manifest is a function of
the set of documents, and nothing that identifies a document is left out of its closure digest.
-/

namespace BeetleMemory.LongTerm

open Keyed
open Fallible (bind_eq_ok pure_eq_ok)

variable {D : Type} {digests : VersionDigests D}
variable {memorySpaceId factualOwnerId : String} {revision maxRetained : Nat}
variable {contents again : ScopeContents D} {manifest : LongTermMemoryVersionScopeManifest}

/-! ## Documents in any order -/

section Order

variable {digest : LongTermMemoryVersionDigestInput D → String}
variable {heads headsAgain : List LongTermMemoryHeadManifest}
variable {materials materialsAgain : List (LongTermMemoryVersionMaterial D)}
variable {transitions transitionsAgain : List GovernedOwnerTransition}

/-- The revisions of one owner are distinct. -/
theorem ownerMaterials_revisions_nodup (distinct : (materials.map (·.ownerRevisionRef)).Nodup)
    (owner : GovernedMemoryOwnerRef)
    : ((ownerMaterials owner materials).map (·.ownerRevision)).Nodup := by
  refine List.Nodup.map_on ?_ (distinct.of_map.filter _)
  intro a ha b hb same
  obtain ⟨memberA, ownerA⟩ := mem_ownerMaterials.mp ha
  obtain ⟨memberB, ownerB⟩ := mem_ownerMaterials.mp hb
  refine List.inj_on_of_nodup_map distinct memberA memberB ?_
  simp [LongTermMemoryVersionMaterial.ownerRevisionRef, same, ownerA, ownerB]

theorem retainedMaterials_eq_of_perm (distinct : (materials.map (·.ownerRevisionRef)).Nodup)
    (perm : materials.Perm materialsAgain) (owner : GovernedMemoryOwnerRef)
    : retainedMaterials materials owner = retainedMaterials materialsAgain owner :=
  sortBy_eq_of_perm (ownerMaterials_revisions_nodup distinct owner) (perm.filter _)

/-- A closed scope is closed in any order of its documents. -/
theorem Closed.perm (closed : Closed digest memorySpaceId factualOwnerId heads materials
      transitions maxRetained)
    (sameHeads : heads.Perm headsAgain) (sameMaterials : materials.Perm materialsAgain)
    (sameTransitions : transitions.Perm transitionsAgain)
    : Closed digest memorySpaceId factualOwnerId headsAgain materialsAgain transitionsAgain
        maxRetained := by
  have retained := retainedMaterials_eq_of_perm closed.materialsDistinct sameMaterials
  have expected : expectedPredecessors materials = expectedPredecessors materialsAgain := by
    funext head
    simp only [expectedPredecessors, retained]
  have successors : successorMaterial materials = successorMaterial materialsAgain := by
    funext transition
    have same := lookup_eq_of_perm closed.materialsDistinct sameMaterials
    cases named : transition.successor <;> simp [successorMaterial, named, same]
  refine ⟨closed.scope, ?_, ?_, ?_, ?_, ?_, ?_, ?_, ?_, ?_, ?_, ?_, ?_⟩
  · simpa only [← sameHeads.mem_iff] using closed.headsAdmitted
  · exact (sameHeads.map _).nodup_iff.mp closed.headsDistinct
  · simpa only [← sameHeads.length_eq, ← sameMaterials.length_eq] using closed.capacity
  · simpa only [← sameMaterials.mem_iff] using closed.materialsAdmitted
  · exact (sameMaterials.map _).nodup_iff.mp closed.materialsDistinct
  · simpa only [← sameHeads.mem_iff, ← sameMaterials.mem_iff] using closed.retained
  · simpa only [← sameHeads.mem_iff, ← sameMaterials.mem_iff] using closed.owned
  · simpa only [← sameTransitions.mem_iff] using closed.transitionsValid
  · exact (sameTransitions.map _).nodup_iff.mp closed.transitionsDistinct
  · simpa only [← sameHeads.mem_iff, ← retained] using closed.contiguous
  · simpa only [← sameHeads.mem_iff, ← sameTransitions.mem_iff, ← expected] using closed.expected
  · simpa only [← sameMaterials.mem_iff, ← sameTransitions.mem_iff, ← successors]
      using closed.bound

end Order

/-! ## Bindings -/

section Bindings

variable (digests)

/-- The binding of a head that passes its own check. -/
def headBindingOf (head : LongTermMemoryHeadManifest) : LongTermMemoryVersionHeadBinding where
  ownerRef := head.ownerRef
  headPhysicalKey := "p8-head:" ++ digests.text "long_term_version_head_key_v6"
    [head.memorySpaceId, head.factualOwnerId, head.ownerRef.ownerPlane.asStr,
      head.ownerRef.ownerId]
  headContentDigest := digests.head head
  headManifestRevision := head.manifestRevision

theorem fromHead_eq_ok {head : LongTermMemoryHeadManifest}
    (accepted : head.validateContract.accepted = true)
    : LongTermMemoryVersionHeadBinding.fromHead digests head
      = .ok (headBindingOf digests head) := by
  have sound := accepted
  simp only [LongTermMemoryHeadManifest.validateContract, contractValidation_accepted,
    List.append_eq_nil_iff, failIf_eq_nil, Bool.or_eq_false_iff, bne_eq_false_iff_eq,
    Bool.not_eq_false'] at sound
  obtain ⟨⟨⟨⟨⟨⟨⟨⟨⟨-, space⟩, owner⟩, -⟩, plane⟩, valid⟩, -⟩, -⟩, -⟩, -⟩ := sound
  have key : longTermVersionHeadKey digests head.memorySpaceId head.factualOwnerId head.ownerRef
      = .ok (headBindingOf digests head).headPhysicalKey := by
    simp [longTermVersionHeadKey, validateKeyInput, validateScopeKeyInput, Store.require, space,
      owner, plane, valid, headBindingOf, bind, Except.bind, pure, Except.pure]
  simp only [LongTermMemoryVersionHeadBinding.fromHead, Store.require, accepted, key, if_true,
    Fallible.ok_bind]
  rfl

end Bindings

namespace LongTermMemoryVersionTransitionBinding

/-- The binding is one that `new` gives. -/
def Canonical (binding : LongTermMemoryVersionTransitionBinding) : Prop :=
  binding.predecessor.isValid = true ∧ binding.predecessor.ownerRef.ownerPlane = .longTerm
    ∧ notCanonical binding.controlRevisionPhysicalKey = false
    ∧ isLowercaseSha256 binding.controlRevisionContentDigest = true

theorem validateFor_isOk {binding : LongTermMemoryVersionTransitionBinding}
    {transition : GovernedOwnerTransition}
    : (binding.validateFor transition).isOk = true
      ↔ binding.Canonical ∧ binding.predecessor = transition.predecessor := by
  rw [Fallible.isOk_iff]
  simp only [validateFor, new, bind_eq_ok, Store.require_eq_ok, pure_eq_ok, Bool.and_eq_true,
    Bool.not_eq_true', beq_iff_eq, Canonical]
  constructor
  · rintro ⟨-, canonical, ⟨-, ⟨⟨⟨valid, plane⟩, key⟩, digest⟩, -⟩, -, same⟩
    exact ⟨⟨valid, plane, key, digest⟩, same⟩
  · rintro ⟨⟨valid, plane, key, digest⟩, same⟩
    exact ⟨(), _, ⟨(), ⟨⟨⟨valid, plane⟩, key⟩, digest⟩, rfl⟩, rfl, same⟩

end LongTermMemoryVersionTransitionBinding

/-- What the builder asks of the transition bindings. -/
structure BindingsFit (contents : ScopeContents D) : Prop where
  count : contents.transitionBindings.length = contents.transitions.length
  neighbours : bindingsRepeat (sortBy (·.predecessor) contents.transitionBindings) = false
  bound : ∀ binding ∈ contents.transitionBindings, binding.Canonical
    ∧ ∃ transition ∈ contents.transitions, transition.predecessor = binding.predecessor

/-- Neighbours differ in predecessor and in key. -/
theorem bindingsRepeat_eq_false {sorted : List LongTermMemoryVersionTransitionBinding}
    : bindingsRepeat sorted = false
      ↔ sorted.IsChain fun a b => a.predecessor ≠ b.predecessor
          ∧ a.controlRevisionPhysicalKey ≠ b.controlRevisionPhysicalKey := by
  rw [← forall_mem_pairs]
  simp [bindingsRepeat]

theorem BindingsFit.strict (fit : BindingsFit contents)
    : (sortBy (·.predecessor) contents.transitionBindings).Pairwise
        fun a b => a.predecessor < b.predecessor :=
  sortBy_strict ((bindingsRepeat_eq_false.mp fit.neighbours).imp fun _ _ differ => differ.1)

theorem BindingsFit.distinct (fit : BindingsFit contents)
    : (contents.transitionBindings.map (·.predecessor)).Nodup :=
  ((sortBy_perm _ _).map _).nodup_iff.mp (nodup_of_strict fit.strict)

/-- Each transition is named by exactly one binding. -/
theorem BindingsFit.named (fit : BindingsFit contents)
    : (contents.transitionBindings.map (·.predecessor)).Perm
        (contents.transitions.map (·.predecessor)) := by
  have inside : contents.transitionBindings.map (·.predecessor)
      ⊆ contents.transitions.map (·.predecessor) := by
    intro predecessor member
    obtain ⟨binding, listed, rfl⟩ := List.mem_map.mp member
    obtain ⟨transition, found, same⟩ := (fit.bound binding listed).2
    exact List.mem_map.mpr ⟨transition, found, same⟩
  refine (List.subperm_of_subset fit.distinct inside).perm_of_length_le ?_
  simp [fit.count]

/-- Two sets of documents that differ in their order only. -/
structure SameDocuments (contents again : ScopeContents D) : Prop where
  heads : contents.heads.Perm again.heads
  materials : contents.materials.Perm again.materials
  transitions : contents.transitions.Perm again.transitions
  bindings : contents.transitionBindings.Perm again.transitionBindings

theorem BindingsFit.perm (fit : BindingsFit contents) (same : SameDocuments contents again)
    : BindingsFit again := by
  refine ⟨?_, ?_, ?_⟩
  · rw [← same.bindings.length_eq, ← same.transitions.length_eq]
    exact fit.count
  · rw [← sortBy_eq_of_perm fit.distinct same.bindings]
    exact fit.neighbours
  · simpa only [← same.bindings.mem_iff, ← same.transitions.mem_iff] using fit.bound

/-! ## Building -/

/-- The manifest of accepted contents. -/
def manifestOf (digests : VersionDigests D) (memorySpaceId factualOwnerId : String)
    (manifestRevision : Nat) (contents : ScopeContents D)
    : LongTermMemoryVersionScopeManifest :=
  let headBindings := sortBy (·.ownerRef) (contents.heads.map (headBindingOf digests))
  let transitionBindings := sortBy (·.predecessor) contents.transitionBindings
  { schemaVersion := longTermMemoryVersionSchemaVersion
    physicalKey := "long-term-version-scope:"
      ++ digests.text "long_term_version_scope_manifest_key_v6" [memorySpaceId, factualOwnerId]
    memorySpaceId, factualOwnerId, manifestRevision, headBindings, transitionBindings
    headCount := contents.heads.length
    materialCount := contents.materials.length
    transitionCount := contents.transitions.length
    closureDigest := digests.closure
      { memorySpaceId, factualOwnerId, manifestRevision
        heads := sortBy (·.ownerRef) contents.heads
        materials := sortBy (·.1)
          (contents.materials.map fun material =>
            (material.ownerRevisionRef, material.contentDigest))
        transitions := sortBy (·.predecessor) contents.transitions
        headBindings, transitionBindings } }

section Steps

variable (closed : Closed digests.material memorySpaceId factualOwnerId contents.heads
  contents.materials contents.transitions maxRetained)

include closed

theorem Closed.headBindings
    : contents.heads.mapM (LongTermMemoryVersionHeadBinding.fromHead digests)
      = .ok (contents.heads.map (headBindingOf digests)) :=
  Fallible.mapM_eq_map fun head member =>
    fromHead_eq_ok digests (closed.headsAdmitted head member).1

/-- The heads are of distinct owners, so no two neighbours share one. -/
theorem Closed.headBindings_apart
    : (pairs (sortBy (·.ownerRef) (contents.heads.map (headBindingOf digests)))).any
        (fun pair => pair.1.ownerRef == pair.2.ownerRef) = false := by
  have distinct : ((sortBy (·.ownerRef) (contents.heads.map (headBindingOf digests))).map
      (·.ownerRef)).Nodup := by
    refine ((sortBy_perm _ _).map _).nodup_iff.mpr ?_
    rw [List.map_map]
    exact closed.headsDistinct
  have differ := forall_mem_pairs.mpr (List.pairwise_map.mp distinct).isChain
  simpa [List.any_eq_false] using differ

theorem Closed.scopeKey
    : longTermVersionScopeManifestKey digests memorySpaceId factualOwnerId
      = .ok ("long-term-version-scope:" ++ digests.text "long_term_version_scope_manifest_key_v6"
          [memorySpaceId, factualOwnerId]) := by
  obtain ⟨space, owner, -, -⟩ := closed.scope
  simp [longTermVersionScopeManifestKey, validateScopeKeyInput, Store.require, space, owner, bind,
    Except.bind, pure, Except.pure]

end Steps

/-- Every binding is checked against the transition with its predecessor. -/
theorem bindings_bound_iff
    : ((sortBy (·.predecessor) contents.transitionBindings).all fun binding =>
        (lookup (·.predecessor) contents.transitions binding.predecessor).any fun transition =>
          (binding.validateFor transition).isOk) = true
      ↔ ∀ binding ∈ contents.transitionBindings, binding.Canonical
        ∧ ∃ transition ∈ contents.transitions,
          transition.predecessor = binding.predecessor := by
  simp only [List.all_eq_true, (sortBy_perm _ _).mem_iff]
  refine forall₂_congr fun binding _ => ?_
  cases found : lookup (·.predecessor) contents.transitions binding.predecessor with
  | none =>
      have missing := lookup_eq_none_iff.mp found
      simp only [Option.any_none, Bool.false_eq_true, false_iff, not_and, not_exists]
      exact fun _ transition member => missing transition member
  | some transition =>
      obtain ⟨member, same⟩ := lookup_some found
      rw [Option.any_some, LongTermMemoryVersionTransitionBinding.validateFor_isOk]
      exact and_congr_right fun _ => ⟨fun _ => ⟨transition, member, same⟩, fun _ => same.symm⟩

/-- What the builder accepts, and that it then builds the manifest. -/
theorem build_eq_ok_iff
    : LongTermMemoryVersionScopeManifest.build digests memorySpaceId factualOwnerId revision
        contents maxRetained = .ok manifest
      ↔ revision ≠ 0
        ∧ Closed digests.material memorySpaceId factualOwnerId contents.heads contents.materials
            contents.transitions maxRetained
        ∧ BindingsFit contents
        ∧ manifest = manifestOf digests memorySpaceId factualOwnerId revision contents := by
  simp only [LongTermMemoryVersionScopeManifest.build, bind_eq_ok, Store.require_eq_ok,
    Bool.and_eq_true, bne_iff_ne, pure_eq_ok, validateScopeClosure_accepted_iff]
  constructor
  · rintro ⟨-, ⟨positive, closed⟩, bindings, bound, -, -, -, ⟨count, apart⟩, -, ⟨-, each⟩, key,
      keyed, rfl⟩
    rw [closed.headBindings] at bound
    rw [closed.scopeKey] at keyed
    cases bound
    cases keyed
    refine ⟨positive, closed, ⟨?_, by simpa using apart, bindings_bound_iff.mp each⟩, rfl⟩
    simpa [(sortBy_perm _ _).length_eq] using count
  · rintro ⟨positive, closed, fit, rfl⟩
    refine ⟨(), ⟨positive, closed⟩, _, closed.headBindings, (), ?_, (), ⟨?_, ?_⟩, (),
      ⟨?_, bindings_bound_iff.mpr fit.bound⟩, _, closed.scopeKey, rfl⟩
    · simpa using closed.headBindings_apart
    · simpa [(sortBy_perm _ _).length_eq] using fit.count
    · simpa using fit.neighbours
    · simpa using closed.transitionsDistinct

/-! ## Documents in any order -/

theorem manifestOf_eq_of_same
    (closed : Closed digests.material memorySpaceId factualOwnerId contents.heads
      contents.materials contents.transitions maxRetained)
    (fit : BindingsFit contents) (same : SameDocuments contents again)
    : manifestOf digests memorySpaceId factualOwnerId revision contents
      = manifestOf digests memorySpaceId factualOwnerId revision again := by
  have heads : sortBy (·.ownerRef) contents.heads = sortBy (·.ownerRef) again.heads :=
    sortBy_eq_of_perm closed.headsDistinct same.heads
  have headBindings : sortBy (·.ownerRef) (contents.heads.map (headBindingOf digests))
      = sortBy (·.ownerRef) (again.heads.map (headBindingOf digests)) := by
    refine sortBy_eq_of_perm ?_ (same.heads.map _)
    rw [List.map_map]
    exact closed.headsDistinct
  have materials : sortBy (·.1) (contents.materials.map fun material =>
        (material.ownerRevisionRef, material.contentDigest))
      = sortBy (·.1) (again.materials.map fun material =>
        (material.ownerRevisionRef, material.contentDigest)) := by
    refine sortBy_eq_of_perm ?_ (same.materials.map _)
    rw [List.map_map]
    exact closed.materialsDistinct
  have transitions : sortBy (·.predecessor) contents.transitions
      = sortBy (·.predecessor) again.transitions :=
    sortBy_eq_of_perm closed.transitionsDistinct same.transitions
  have bindings : sortBy (·.predecessor) contents.transitionBindings
      = sortBy (·.predecessor) again.transitionBindings :=
    sortBy_eq_of_perm fit.distinct same.bindings
  simp only [manifestOf, heads, headBindings, materials, transitions, bindings,
    same.heads.length_eq, same.materials.length_eq, same.transitions.length_eq]

/-- A manifest is accepted for the contents it is built from, and for no others. -/
theorem validateExact_accepted_iff
    : (manifest.validateExact digests contents maxRetained).accepted = true
      ↔ LongTermMemoryVersionScopeManifest.build digests manifest.memorySpaceId
          manifest.factualOwnerId manifest.manifestRevision contents maxRetained
        = .ok manifest := by
  simp only [LongTermMemoryVersionScopeManifest.validateExact, contractValidation_accepted,
    List.append_eq_nil_iff, failIf_eq_nil, bne_eq_false_iff_eq]
  constructor
  · rintro ⟨-, same⟩
    cases built : LongTermMemoryVersionScopeManifest.build digests manifest.memorySpaceId
        manifest.factualOwnerId manifest.manifestRevision contents maxRetained with
    | error error => simp [built, Except.toOption] at same
    | ok other =>
        rw [built] at same
        exact congrArg Except.ok (Option.some.inj same)
  · intro built
    refine ⟨?_, by rw [built]; rfl⟩
    have accepted := validateScopeClosure_accepted_iff.mpr (build_eq_ok_iff.mp built).2.1
    simpa only [validateScopeClosure, contractValidation_accepted, contractValidation_failures]
      using accepted

/-- Two contents with the same heads, transitions, bindings and identities of materials. -/
structure SameIdentities (contents other : ScopeContents D) : Prop where
  heads : contents.heads.Perm other.heads
  materials : (contents.materials.map fun material =>
      (material.ownerRevisionRef, material.contentDigest)).Perm
    (other.materials.map fun material => (material.ownerRevisionRef, material.contentDigest))
  transitions : contents.transitions.Perm other.transitions
  bindings : contents.transitionBindings.Perm other.transitionBindings

theorem perm_of_sortBy_eq {α κ : Type} [LinearOrder κ] {key : α → κ} {items other : List α}
    (same : sortBy key items = sortBy key other)
    : items.Perm other :=
  (sortBy_perm key items).symm.trans (same ▸ sortBy_perm key other)

/-- Equal closure digests cover the same documents. -/
theorem sameIdentities_of_digest {other : ScopeContents D} {space owner : String} {number : Nat}
    (injective : Function.Injective digests.closure)
    (same : (manifestOf digests memorySpaceId factualOwnerId revision contents).closureDigest
      = (manifestOf digests space owner number other).closureDigest)
    : SameIdentities contents other := by
  have inputs := injective same
  simp only [ScopeClosureDigestInput.mk.injEq] at inputs
  obtain ⟨-, -, -, heads, materials, transitions, -, bindings⟩ := inputs
  exact ⟨perm_of_sortBy_eq heads, perm_of_sortBy_eq materials, perm_of_sortBy_eq transitions,
    perm_of_sortBy_eq bindings⟩

/-! ## Four revisions of one owner -/

/-- Sixty-four hexadecimal digits of a number. -/
def hexText (n : Nat) : String :=
  String.ofList ((List.range 64).map fun i => Nat.digitChar (n / 16 ^ i % 16))

theorem hexText_hex (n : Nat) : isLowercaseSha256 (hexText n) = true := by
  have digits : ∀ k < 16, (('0' ≤ Nat.digitChar k && Nat.digitChar k ≤ '9')
      || ('a' ≤ Nat.digitChar k && Nat.digitChar k ≤ 'f')) = true := by
    decide
  simp only [isLowercaseSha256, hexText, String.toList_ofList, List.length_map,
    List.length_range, beq_self_eq_true, Bool.true_and, List.all_map, List.all_eq_true]
  exact fun i _ => digits _ (Nat.mod_lt _ (by decide))

/-- A number for a list of numbers, in 256 bits. -/
def sampleHash (parts : List Nat) : Nat :=
  parts.foldl (fun n part => (n * 65599 + part) % 2 ^ 256) 7

def sampleTextHash (text : String) : Nat :=
  sampleHash (text.toList.map Char.toNat)

/-- Digests that tell the documents of the sample apart. -/
def sampleDigests : VersionDigests Unit where
  material input := hexText (sampleHash [sampleTextHash input.ownerRef.ownerId,
    input.ownerRevision, input.origin.validFrom, sampleTextHash input.governedContent.content])
  control input := hexText (sampleHash [sampleTextHash input.revisionId, input.createdAt])
  tombstone _ reference _ revisionId time := hexText (sampleHash
    [sampleTextHash reference.ownerRef.ownerId, sampleTextHash revisionId, time])
  audit event := hexText (sampleHash [sampleTextHash event.reason, event.createdAt])
  head head := hexText (sampleHash [sampleTextHash head.ownerRef.ownerId, head.manifestRevision])
  closure input := hexText (sampleHash
    [input.manifestRevision, input.heads.length, input.transitions.length])
  text domain fields := hexText (sampleHash
    (sampleTextHash domain :: fields.map sampleTextHash))
  material_hex _ := hexText_hex _
  control_hex _ := hexText_hex _
  tombstone_hex _ _ _ _ _ := hexText_hex _
  text_hex _ _ := hexText_hex _

/-- The sample digests, with those of the sample materials. -/
def chainDigests : VersionDigests Unit :=
  { sampleDigests with
    material := sampleDigest
    material_hex := fun input => by
      have digits : ∀ k < 16, (('0' ≤ Nat.digitChar k && Nat.digitChar k ≤ '9')
          || ('a' ≤ Nat.digitChar k && Nat.digitChar k ≤ 'f')) = true := by
        decide
      have last := digits (input.ownerRevision % 16) (Nat.mod_lt _ (by decide))
      simp only [isLowercaseSha256, sampleDigest, String.toList_ofList, List.length_append,
        List.length_replicate, List.length_singleton, List.all_append, List.all_cons,
        List.all_nil, Bool.and_true, last]
      decide }

/-- The revisions one to four of the sample owner, bound to control documents by these keys. -/
def chainContents (keys : List String) : ScopeContents Unit :=
  let materials := [sampleMaterial 1 10, sampleMaterial 2 20, sampleMaterial 3 30,
    sampleMaterial 4 40]
  { heads := [{ sampleHead (sampleMaterial 1 10) (sampleMaterial 2 20) with
      currentRevision := 4
      retainedRevisionDigests := materials.map (·.retainedDigest) }]
    materials
    transitions := [1, 2, 3].map fun revision =>
      { predecessor := ⟨sampleOwner, revision⟩
        terminatedAt := 10 * (revision + 1)
        termination := .revised
        successor := some ⟨sampleOwner, revision + 1⟩ }
    transitionBindings := ([1, 2, 3].zip keys).map fun entry =>
      { predecessor := ⟨sampleOwner, entry.1⟩
        controlRevisionPhysicalKey := entry.2
        controlRevisionContentDigest := String.ofList (List.replicate 64 '0') } }

theorem chainContents_built
    : (LongTermMemoryVersionScopeManifest.build chainDigests "s" "s" 1
        (chainContents ["k", "l", "m"]) 4).isOk = true := by
  decide +kernel

/-! ## The set of documents -/

/-- The manifest of accepted contents is that of their documents in any order, and validates
against no contents that differ in what identifies a document.
-/
theorem manifest_determined_by_documents (injective : Function.Injective digests.closure)
    (built : LongTermMemoryVersionScopeManifest.build digests memorySpaceId factualOwnerId
      revision contents maxRetained = .ok manifest)
    : (∀ again, SameDocuments contents again →
        LongTermMemoryVersionScopeManifest.build digests memorySpaceId factualOwnerId revision
            again maxRetained = .ok manifest
          ∧ (manifest.validateExact digests again maxRetained).accepted = true)
      ∧ ∀ other otherLimit, (manifest.validateExact digests other otherLimit).accepted = true
        → SameIdentities contents other := by
  obtain ⟨positive, closed, fit, rfl⟩ := build_eq_ok_iff.mp built
  refine ⟨fun again same => ?_, fun other otherLimit accepted => ?_⟩
  · have rebuilt : LongTermMemoryVersionScopeManifest.build digests memorySpaceId factualOwnerId
        revision again maxRetained
          = .ok (manifestOf digests memorySpaceId factualOwnerId revision contents) :=
      build_eq_ok_iff.mpr ⟨positive,
        closed.perm same.heads same.materials same.transitions, fit.perm same,
        manifestOf_eq_of_same closed fit same⟩
    exact ⟨rebuilt, validateExact_accepted_iff.mpr rebuilt⟩
  · have otherBuilt := (build_eq_ok_iff.mp (validateExact_accepted_iff.mp accepted)).2.2.2
    exact sameIdentities_of_digest injective
      (congrArg LongTermMemoryVersionScopeManifest.closureDigest otherBuilt)

deriving instance Countable for GovernedMemoryOwnerPlane, GovernedMemoryOwnerRef,
  GovernedOwnerRevisionRef, LongTermMemoryRetainedRevisionDigest, LongTermMemoryHeadManifest,
  GovernedOwnerTermination, GovernedOwnerTransition, LongTermMemoryVersionHeadBinding,
  LongTermMemoryVersionTransitionBinding, ScopeClosureDigestInput

/-- Some injective closure digest, and four revisions with their documents in two orders. -/
theorem chain_determined_by_documents
    : ∃ (digests : VersionDigests Unit) (manifest : LongTermMemoryVersionScopeManifest),
        Function.Injective digests.closure
        ∧ LongTermMemoryVersionScopeManifest.build digests "s" "s" 1
            (chainContents ["k", "l", "m"]) 4 = .ok manifest
        ∧ LongTermMemoryVersionScopeManifest.build digests "s" "s" 1
            { chainContents ["k", "l", "m"] with
              materials := (chainContents ["k", "l", "m"]).materials.reverse } 4
          = .ok manifest := by
  obtain ⟨closure, injective⟩ := Digests.exists_injective_text ScopeClosureDigestInput
  obtain ⟨_, built⟩ := Fallible.isOk_iff.mp chainContents_built
  -- No check of the builder reads the closure digest.
  obtain ⟨positive, closed, fit, -⟩ := build_eq_ok_iff.mp built
  have again : LongTermMemoryVersionScopeManifest.build { chainDigests with closure } "s" "s" 1
      (chainContents ["k", "l", "m"]) 4 = .ok _ :=
    build_eq_ok_iff.mpr ⟨positive, closed, fit, rfl⟩
  refine ⟨_, _, injective, again, ((manifest_determined_by_documents injective again).1 _ ?_).1⟩
  exact ⟨.refl _, (List.reverse_perm _).symm, .refl _, .refl _⟩

/-! ## Transitions and control revisions -/

/-- The bindings name each transition's predecessor exactly once, each with a key of its own. -/
structure OneToOne (transitions : List GovernedOwnerTransition)
    (bindings : List LongTermMemoryVersionTransitionBinding)
    : Prop where
  predecessors : (bindings.map (·.predecessor)).Perm (transitions.map (·.predecessor))
  keys : (bindings.map (·.controlRevisionPhysicalKey)).Nodup

/-- Two bindings with the predecessor of a third one between theirs have different keys. -/
def KeysApart (bindings : List LongTermMemoryVersionTransitionBinding) : Prop :=
  ∀ a ∈ bindings, ∀ b ∈ bindings, ∀ c ∈ bindings, a.predecessor < b.predecessor
    → b.predecessor < c.predecessor
    → a.controlRevisionPhysicalKey ≠ c.controlRevisionPhysicalKey

/-- Keys are compared between neighbours only, so the others have to differ by themselves. -/
theorem built_bindings_one_to_one_iff
    (built : LongTermMemoryVersionScopeManifest.build digests memorySpaceId factualOwnerId
      revision contents maxRetained = .ok manifest)
    : OneToOne contents.transitions manifest.transitionBindings
      ↔ KeysApart contents.transitionBindings := by
  obtain ⟨-, -, fit, rfl⟩ := build_eq_ok_iff.mp built
  have order := sortBy_perm (·.predecessor) contents.transitionBindings
  constructor
  · intro whole a ha b hb c hc below above same
    have keys := (order.map (·.controlRevisionPhysicalKey)).nodup_iff.mp whole.keys
    have same := List.inj_on_of_nodup_map keys ha hc same
    exact absurd (below.trans above) (by simp [same])
  · intro apart
    refine ⟨(order.map _).trans fit.named, List.pairwise_map.mpr ?_⟩
    have neighbours := bindingsRepeat_eq_false.mp fit.neighbours
    refine pairwise_of_neighbours fit.strict (neighbours.imp fun _ _ differ => differ.2) ?_
    simpa only [KeysApart, manifestOf, order.mem_iff] using apart

theorem distinct_keys_one_to_one
    : ∃ manifest, LongTermMemoryVersionScopeManifest.build chainDigests "s" "s" 1
          (chainContents ["k", "l", "m"]) 4 = .ok manifest
        ∧ OneToOne (chainContents ["k", "l", "m"]).transitions manifest.transitionBindings := by
  obtain ⟨manifest, built⟩ := Fallible.isOk_iff.mp chainContents_built
  refine ⟨manifest, built, (built_bindings_one_to_one_iff built).mpr ?_⟩
  unfold KeysApart
  decide +kernel

/-- The first and the third transition are bound to the same control document. -/
theorem repeated_key_accepted
    : ∃ manifest, LongTermMemoryVersionScopeManifest.build chainDigests "s" "s" 1
          (chainContents ["k", "l", "k"]) 4 = .ok manifest
        ∧ ¬ OneToOne (chainContents ["k", "l", "k"]).transitions
            manifest.transitionBindings := by
  have keys : (LongTermMemoryVersionScopeManifest.build chainDigests "s" "s" 1
      (chainContents ["k", "l", "k"]) 4).toOption.map
        (fun manifest => manifest.transitionBindings.map (·.controlRevisionPhysicalKey))
      = some ["k", "l", "k"] := by
    decide +kernel
  cases built : LongTermMemoryVersionScopeManifest.build chainDigests "s" "s" 1
      (chainContents ["k", "l", "k"]) 4 with
  | error error => simp [built, Except.toOption] at keys
  | ok manifest =>
      simp only [built, Except.toOption, Option.map_some, Option.some.injEq] at keys
      refine ⟨manifest, rfl, fun whole => ?_⟩
      have distinct := whole.keys
      rw [keys] at distinct
      exact absurd distinct (by decide)

end BeetleMemory.LongTerm
