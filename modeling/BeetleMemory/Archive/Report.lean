import BeetleMemory.Archive.Selection

/-! When the report of the archive selection is true and every choice in it justified. The counts
per source leave out the hits of the second pass, and a selected hit whose normalized text is empty
makes every later hit with text count as similar to it.
-/

namespace BeetleMemory.Archive

open BeetleMemory.Graph (TextTables)

/-! ## The course of a selection -/

section Course

variable (tables : TextTables) (hits : List ArchiveSearchHit) (profile : MemoryProfile)
  (maxChars : Nat)

/-- The hits that the first pass goes over; without hits or budget there is no pass. -/
def consideredHits : List (PreparedArchivePromptHit tables) :=
  let policy := selectorPolicy profile maxChars
  if hits.isEmpty || policy.maxItems == 0 || policy.maxChars == 0 then []
  else prepareArchivePromptHits tables hits

/-- The state before the hit at a position of the first pass. -/
def primaryAt (n : Nat) : SelectorState tables :=
  Runs.stateAt (primaryStep (selectorPolicy profile maxChars)) {}
    (consideredHits tables hits profile maxChars) n

/-- The state between the passes. -/
def afterPrimary : SelectorState tables :=
  primaryPass (selectorPolicy profile maxChars) (consideredHits tables hits profile maxChars)

/-- The state before the hit at a position of the second pass. -/
def relaxedAt (n : Nat) : SelectorState tables :=
  let base := afterPrimary tables hits profile maxChars
  Runs.stateAt (relaxedStep (selectorPolicy profile maxChars)) base base.deferred n

/-- (Met outcome selected hit) says that a hit had this outcome in one of the passes, after these
hits were selected.
-/
inductive Met : Outcome → List ArchiveSearchHit → ArchiveSearchHit → Prop
  | primary {n : Nat} {prepared : PreparedArchivePromptHit tables}
    (here : (consideredHits tables hits profile maxChars)[n]? = some prepared)
    : Met
        (primaryOutcome (selectorPolicy profile maxChars)
          (primaryAt tables hits profile maxChars n) prepared)
        (primaryAt tables hits profile maxChars n).selected prepared.hit
  | relaxed {n : Nat} {prepared : PreparedArchivePromptHit tables}
    (here : (afterPrimary tables hits profile maxChars).deferred[n]? = some prepared)
    : Met
        (relaxedOutcome (selectorPolicy profile maxChars)
          (relaxedAt tables hits profile maxChars n) prepared)
        (relaxedAt tables hits profile maxChars n).selected prepared.hit

/-! ## A true and justified selection -/

structure TruthfulSelection : Prop where
  chars : ((selectArchiveHitsForPromptWithReport tables hits profile maxChars).hits.map
    archivePromptLineLen).sum ≤ (selectorPolicy profile maxChars).maxChars
  items : (selectArchiveHitsForPromptWithReport tables hits profile maxChars).hits.length
    ≤ (selectorPolicy profile maxChars).maxItems
  /-- A hit that is skipped for similarity has text in common with a selected one. -/
  similar : ∀ selected hit, Met tables hits profile maxChars .similar selected hit
    → ∃ earlier ∈ selected,
        CommonText (normalizedSimilarityKey tables earlier) (normalizedSimilarityKey tables hit)
  selectedHits :
    let result := selectArchiveHitsForPromptWithReport tables hits profile maxChars
    result.report.selectedHits = result.hits.length
  /-- The counts per source add up. -/
  total :
    let result := selectArchiveHitsForPromptWithReport tables hits profile maxChars
    (result.report.sourceStats.map (·.selectedCount)).sum = result.hits.length
  perSource : ∀ source,
    let result := selectArchiveHitsForPromptWithReport tables hits profile maxChars
    ((result.report.sourceStats.filter (·.source = source)).map (·.selectedCount)).sum
      = result.hits.countP (·.source = source)
  /-- Only the hits of the second pass go beyond the quotas. -/
  quotas :
    let result := selectArchiveHitsForPromptWithReport tables hits profile maxChars
    let primary := (afterPrimary tables hits profile maxChars).selected
    (∃ relaxed, result.hits = primary ++ relaxed
        ∧ relaxed.length = result.report.relaxedQuotaSelected)
      ∧ ∀ source, primary.countP (·.source = source)
          ≤ sourceQuota (selectorPolicy profile maxChars) source
  /-- A deferred hit is selected, or has no place, does not fit or is similar. -/
  complete : ∀ n prepared,
    (afterPrimary tables hits profile maxChars).deferred[n]? = some prepared →
      let result := selectArchiveHitsForPromptWithReport tables hits profile maxChars
      result.hits[(relaxedAt tables hits profile maxChars n).selected.length]?
          = some (annotateSelectorReason prepared.hit (relaxedSelectorReason prepared.hit))
        ∧ relaxedOutcome (selectorPolicy profile maxChars)
            (relaxedAt tables hits profile maxChars n) prepared = .taken
      ∨ (selectorPolicy profile maxChars).maxItems ≤ result.hits.length
      ∨ (selectorPolicy profile maxChars).maxChars
          < (result.hits.map archivePromptLineLen).sum + archivePromptLineLen prepared.hit
      ∨ isTooSimilar (result.hits.map (normalizedSimilarityKey tables))
          (normalizedSimilarityKey tables prepared.hit) = true

/-- A hit with text meets a selected hit without text, and no selected hit has a character of
it.
-/
def Blinded (selected : List ArchiveSearchHit) (hit : ArchiveSearchHit) : Prop :=
  normalizedSimilarityKey tables hit ≠ ""
    ∧ (∃ earlier ∈ selected, normalizedSimilarityKey tables earlier = "")
    ∧ ∀ earlier ∈ selected, ∀ c ∈ (normalizedSimilarityKey tables earlier).toList,
        c ∉ (normalizedSimilarityKey tables hit).toList

/-- The second pass has nothing to select, and no hit is compared that is blinded. -/
structure Undisturbed : Prop where
  nothingRelaxed :
    let base := afterPrimary tables hits profile maxChars
    let policy := selectorPolicy profile maxChars
    base.selected.length < policy.maxItems → ∀ prepared ∈ base.deferred,
      policy.maxChars < base.usedChars + prepared.promptLineLen
        ∨ isTooSimilar base.similarityKeys prepared.similarityKey = true
  notBlinded : ∀ outcome selected hit, Met tables hits profile maxChars outcome selected hit
    → outcome = .similar ∨ outcome = .taken → ¬ Blinded tables selected hit

end Course

/-! ## The result and the states of the passes -/

section Result

variable {tables : TextTables} {hits : List ArchiveSearchHit} {profile : MemoryProfile}
  {maxChars : Nat}

/-- The state after both passes. -/
def finalState (tables : TextTables) (hits : List ArchiveSearchHit) (profile : MemoryProfile)
    (maxChars : Nat)
    : SelectorState tables :=
  relaxedPass (selectorPolicy profile maxChars) (afterPrimary tables hits profile maxChars)

/-- What the result takes from the last state, also when there was no pass. -/
theorem result_eq (tables : TextTables) (hits : List ArchiveSearchHit) (profile : MemoryProfile)
    (maxChars : Nat)
    : let result := selectArchiveHitsForPromptWithReport tables hits profile maxChars
      let state := finalState tables hits profile maxChars
      result.hits = state.selected ∧ result.report.selectedHits = state.selected.length
        ∧ result.report.relaxedQuotaSelected = state.relaxedQuotaSelected
        ∧ result.report.sourceStats = sourceStats state.perSource := by
  intro result state
  by_cases early : (hits.isEmpty || (selectorPolicy profile maxChars).maxItems == 0
      || (selectorPolicy profile maxChars).maxChars == 0) = true
  · have considered : consideredHits tables hits profile maxChars = [] := if_pos early
    have none : state = {} := by
      simp only [state, finalState, afterPrimary, considered, relaxedPass_eq]
      rfl
    rw [none]
    simp only [result, selectArchiveHitsForPromptWithReport, if_pos early, List.length_nil,
      true_and]
    rfl
  · have considered : consideredHits tables hits profile maxChars
        = prepareArchivePromptHits tables hits := if_neg early
    simp only [result, state, selectArchiveHitsForPromptWithReport, if_neg early, finalState,
      afterPrimary, considered, and_self]

theorem finalState_eq
    : finalState tables hits profile maxChars
      = relaxedAt tables hits profile maxChars
          (afterPrimary tables hits profile maxChars).deferred.length := by
  rw [finalState, relaxedPass_eq, relaxedAt, Runs.stateAt_length]

theorem primaryAt_consistent (n : Nat)
    : Consistent (selectorPolicy profile maxChars) (primaryAt tables hits profile maxChars n) :=
  Runs.invariant Consistent.start (fun _ _ => Consistent.primaryStep) n

theorem afterPrimary_facts (tables : TextTables) (hits : List ArchiveSearchHit)
    (profile : MemoryProfile) (maxChars : Nat)
    : Consistent (selectorPolicy profile maxChars) (afterPrimary tables hits profile maxChars)
      ∧ Counted (selectorPolicy profile maxChars) (afterPrimary tables hits profile maxChars) :=
  primaryPass_facts _

theorem relaxedAt_consistent (tables : TextTables) (hits : List ArchiveSearchHit)
    (profile : MemoryProfile) (maxChars n : Nat)
    : Consistent (selectorPolicy profile maxChars) (relaxedAt tables hits profile maxChars n) :=
  Runs.invariant (afterPrimary_facts tables hits profile maxChars).1
    (fun _ _ => Consistent.relaxedStep) n

theorem relaxedAt_related (tables : TextTables) (hits : List ArchiveSearchHit)
    (profile : MemoryProfile) (maxChars : Nat) {m n : Nat} (order : m ≤ n)
    : Relaxed (relaxedAt tables hits profile maxChars m)
        (relaxedAt tables hits profile maxChars n) :=
  Runs.related Relaxed.refl Relaxed.trans Relaxed.step order

theorem finalState_consistent (tables : TextTables) (hits : List ArchiveSearchHit)
    (profile : MemoryProfile) (maxChars : Nat)
    : Consistent (selectorPolicy profile maxChars) (finalState tables hits profile maxChars) := by
  rw [finalState_eq]
  exact relaxedAt_consistent tables hits profile maxChars _

/-- The last state comes after every state of the second pass. -/
theorem relaxedAt_final {n : Nat}
    (inside : n ≤ (afterPrimary tables hits profile maxChars).deferred.length)
    : Relaxed (relaxedAt tables hits profile maxChars n)
        (finalState tables hits profile maxChars) := by
  rw [finalState_eq]
  exact relaxedAt_related tables hits profile maxChars inside

theorem afterPrimary_final (tables : TextTables) (hits : List ArchiveSearchHit)
    (profile : MemoryProfile) (maxChars : Nat)
    : Relaxed (afterPrimary tables hits profile maxChars)
        (finalState tables hits profile maxChars) :=
  relaxedAt_final (n := 0) (Nat.zero_le _)

/-! ## Similarity -/

/-- The keys that a hit is compared with are those of the hits selected before it. -/
theorem Met.keys {outcome : Outcome} {selected : List ArchiveSearchHit} {hit : ArchiveSearchHit}
    (met : Met tables hits profile maxChars outcome selected hit)
    : (outcome = .similar → isTooSimilar (selected.map (normalizedSimilarityKey tables))
          (normalizedSimilarityKey tables hit) = true)
      ∧ (outcome = .taken → isTooSimilar (selected.map (normalizedSimilarityKey tables))
          (normalizedSimilarityKey tables hit) = false) := by
  cases met with
  | @primary n prepared here =>
      rw [← (primaryAt_consistent n).keys, ← prepared.key_eq, primaryOutcome]
      split_ifs with full tooLong overQuota similar <;> simp_all
  | @relaxed n prepared here =>
      rw [← (relaxedAt_consistent tables hits profile maxChars n).keys, ← prepared.key_eq, relaxedOutcome]
      split_ifs with full tooLong similar <;> simp_all

theorem Blinded.no_common {selected : List ArchiveSearchHit} {hit : ArchiveSearchHit}
    (blinded : Blinded tables selected hit)
    : ¬ ∃ earlier ∈ selected, CommonText (normalizedSimilarityKey tables earlier)
          (normalizedSimilarityKey tables hit) := by
  rintro ⟨earlier, member, common⟩
  obtain ⟨c, inEarlier, inHit⟩ := commonText_iff.mp common
  exact blinded.2.2 earlier member c inEarlier inHit

/-- A hit that is too similar has text in common with a selected hit, or is blinded. -/
theorem common_or_blinded {selected : List ArchiveSearchHit} {hit : ArchiveSearchHit}
    (similar : isTooSimilar (selected.map (normalizedSimilarityKey tables))
      (normalizedSimilarityKey tables hit) = true)
    : (∃ earlier ∈ selected, CommonText (normalizedSimilarityKey tables earlier)
          (normalizedSimilarityKey tables hit))
      ∨ Blinded tables selected hit := by
  obtain ⟨nonempty, key, listed, reason⟩ := common_or_empty_of_isTooSimilar similar
  obtain ⟨earlier, member, rfl⟩ := List.mem_map.mp listed
  rcases reason with empty | common
  · by_cases shared : ∃ earlier ∈ selected, CommonText (normalizedSimilarityKey tables earlier)
        (normalizedSimilarityKey tables hit)
    · exact Or.inl shared
    · refine Or.inr ⟨nonempty, ⟨earlier, member, empty⟩, fun other inside c inOther inHit => ?_⟩
      exact shared ⟨other, inside, commonText_iff.mpr ⟨c, inOther, inHit⟩⟩
  · exact Or.inl ⟨earlier, member, common⟩

theorem similar_iff_notBlinded
    : (∀ selected hit, Met tables hits profile maxChars .similar selected hit
        → ∃ earlier ∈ selected, CommonText (normalizedSimilarityKey tables earlier)
            (normalizedSimilarityKey tables hit))
      ↔ ∀ outcome selected hit, Met tables hits profile maxChars outcome selected hit
          → outcome = .similar ∨ outcome = .taken → ¬ Blinded tables selected hit := by
  constructor
  · intro justified outcome selected hit met reason blinded
    rcases reason with rfl | rfl
    · exact blinded.no_common (justified selected hit met)
    · obtain ⟨nonempty, ⟨earlier, member, empty⟩, -⟩ := blinded
      have tooSimilar : isTooSimilar (selected.map (normalizedSimilarityKey tables))
          (normalizedSimilarityKey tables hit) = true :=
        isTooSimilar_of_empty nonempty (List.mem_map.mpr ⟨earlier, member, empty⟩)
      exact Bool.false_ne_true ((met.keys.2 rfl).symm.trans tooSimilar)
  · intro clear selected hit met
    rcases common_or_blinded (met.keys.1 rfl) with common | blinded
    · exact common
    · exact absurd blinded (clear .similar selected hit met (Or.inl rfl))

/-! ## Counts and places -/

theorem sourceStats_total (perSource : ArchiveRecordSource → Nat)
    : ((sourceStats perSource).map (·.selectedCount)).sum
      = perSource .dailyNote + perSource .transcript + perSource .turnLog := by
  have keep (sources : List ArchiveRecordSource)
      : (((sources.filter (perSource · ≠ 0)).map fun source =>
          (⟨source, perSource source⟩ : ArchivePromptSelectionSourceStats)).map
            (·.selectedCount)).sum = (sources.map perSource).sum := by
    induction sources with
    | nil => rfl
    | cons source rest ih =>
        by_cases none : perSource source = 0
        · simpa [none] using ih
        · simpa [none] using ih
  rw [sourceStats, keep]
  simp [Nat.add_assoc]

theorem sourceStats_of (perSource : ArchiveRecordSource → Nat) (source : ArchiveRecordSource)
    : (((sourceStats perSource).filter (·.source = source)).map (·.selectedCount)).sum
      = perSource source := by
  cases source <;>
    by_cases daily : perSource .dailyNote = 0 <;>
    by_cases transcript : perSource .transcript = 0 <;>
    by_cases turn : perSource .turnLog = 0 <;>
    simp [sourceStats, daily, transcript, turn]

theorem length_by_source (selected : List ArchiveSearchHit)
    : selected.countP (·.source = .dailyNote) + selected.countP (·.source = .transcript)
        + selected.countP (·.source = .turnLog) = selected.length := by
  induction selected with
  | nil => rfl
  | cons hit rest ih =>
      simp only [List.countP_cons, List.length_cons, ← ih]
      cases hit.source <;> simp <;> omega

/-- The counts of the report are those of the first pass. -/
theorem finalState_perSource (source : ArchiveRecordSource)
    : (finalState tables hits profile maxChars).perSource source
      = (afterPrimary tables hits profile maxChars).selected.countP (·.source = source) := by
  obtain ⟨_, _, _, same⟩ := afterPrimary_final tables hits profile maxChars
  rw [same, (afterPrimary_facts tables hits profile maxChars).2.perSource]

theorem isTooSimilar_append {keys more : List String} {key : String}
    (similar : isTooSimilar keys key = true)
    : isTooSimilar (keys ++ more) key = true := by
  rw [isTooSimilar] at similar ⊢
  split_ifs at similar ⊢ with empty
  rw [List.any_append, similar, Bool.true_or]

/-- A deferred hit that is not selected has no place, does not fit or is similar, also at the
end.
-/
theorem deferred_complete {n : Nat} {prepared : PreparedArchivePromptHit tables}
    (here : (afterPrimary tables hits profile maxChars).deferred[n]? = some prepared)
    : (finalState tables hits profile maxChars).selected[
          (relaxedAt tables hits profile maxChars n).selected.length]?
          = some (annotateSelectorReason prepared.hit (relaxedSelectorReason prepared.hit))
        ∧ relaxedOutcome (selectorPolicy profile maxChars)
            (relaxedAt tables hits profile maxChars n) prepared = .taken
      ∨ (selectorPolicy profile maxChars).maxItems
          ≤ (finalState tables hits profile maxChars).selected.length
      ∨ (selectorPolicy profile maxChars).maxChars
          < (finalState tables hits profile maxChars).usedChars + prepared.promptLineLen
      ∨ isTooSimilar (finalState tables hits profile maxChars).similarityKeys
          prepared.similarityKey = true := by
  have inside : n < (afterPrimary tables hits profile maxChars).deferred.length :=
    (List.getElem?_eq_some_iff.mp here).1
  obtain ⟨extra, selected, -, -⟩ := relaxedAt_final inside.le
  have last := finalState_consistent tables hits profile maxChars
  have before := relaxedAt_consistent tables hits profile maxChars n
  by_cases taken : relaxedOutcome (selectorPolicy profile maxChars)
      (relaxedAt tables hits profile maxChars n) prepared = .taken
  · refine Or.inl ⟨?_, taken⟩
    obtain ⟨more, later, -, -⟩ := relaxedAt_final (n := n + 1) inside
    have next : relaxedAt tables hits profile maxChars (n + 1)
        = relaxedStep (selectorPolicy profile maxChars)
            (relaxedAt tables hits profile maxChars n) prepared := Runs.stateAt_succ here
    rw [later, next, relaxedStep, taken]
    simp
  · right
    rw [relaxedOutcome] at taken
    split_ifs at taken with full tooLong similar
    · left
      rw [selected, List.length_append]
      omega
    · right; left
      rw [last.chars, selected, List.map_append, List.sum_append, ← before.chars]
      omega
    · right; right
      rw [last.keys, selected, List.map_append, ← before.keys]
      exact isTooSimilar_append similar
    · exact absurd rfl taken

/-- The second pass has selected nothing so far. -/
def Unchanged (policy : ArchiveSelectorPolicy) (base state : SelectorState tables) : Prop :=
  state.selected = base.selected ∧ Consistent policy state

theorem relaxedAt_unchanged
    (blocked : (afterPrimary tables hits profile maxChars).selected.length
        < (selectorPolicy profile maxChars).maxItems
      → ∀ prepared ∈ (afterPrimary tables hits profile maxChars).deferred,
        (selectorPolicy profile maxChars).maxChars
            < (afterPrimary tables hits profile maxChars).usedChars + prepared.promptLineLen
          ∨ isTooSimilar (afterPrimary tables hits profile maxChars).similarityKeys
              prepared.similarityKey = true)
    (n : Nat)
    : Unchanged (selectorPolicy profile maxChars) (afterPrimary tables hits profile maxChars)
        (relaxedAt tables hits profile maxChars n) := by
  have first := (afterPrimary_facts tables hits profile maxChars).1
  refine Runs.invariant_of_forall ⟨rfl, first⟩ (fun prepared member state unchanged => ?_) n
  obtain ⟨same, consistent⟩ := unchanged
  refine ⟨?_, consistent.relaxedStep⟩
  have reason := fun room => blocked room prepared member
  rw [first.chars, first.keys, ← same, ← consistent.chars, ← consistent.keys] at reason
  rw [relaxedStep, relaxedOutcome]
  split_ifs with full tooLong similar
  · exact same
  · exact same
  · exact same
  · rcases reason (by omega) with long | alike
    · exact absurd long tooLong
    · exact absurd alike similar

/-- The second pass selects nothing exactly when after the first pass there is no place, or no
deferred hit fits and is not similar.
-/
theorem nothingRelaxed_iff
    : (finalState tables hits profile maxChars).selected
        = (afterPrimary tables hits profile maxChars).selected
      ↔ ((afterPrimary tables hits profile maxChars).selected.length
            < (selectorPolicy profile maxChars).maxItems
          → ∀ prepared ∈ (afterPrimary tables hits profile maxChars).deferred,
            (selectorPolicy profile maxChars).maxChars
                < (afterPrimary tables hits profile maxChars).usedChars + prepared.promptLineLen
              ∨ isTooSimilar (afterPrimary tables hits profile maxChars).similarityKeys
                  prepared.similarityKey = true) := by
  have first := (afterPrimary_facts tables hits profile maxChars).1
  constructor
  · intro same room prepared member
    obtain ⟨n, here⟩ := List.mem_iff_getElem?.mp member
    have last := finalState_consistent tables hits profile maxChars
    have inside := (List.getElem?_eq_some_iff.mp here).1
    rcases deferred_complete here with ⟨found, -⟩ | full | tooLong | similar
    · -- the place of a hit of the second pass lies behind those of the first pass
      obtain ⟨extra, selected, -, -⟩ :=
        relaxedAt_related tables hits profile maxChars (Nat.zero_le n)
      have before : (afterPrimary tables hits profile maxChars).selected.length
          ≤ (relaxedAt tables hits profile maxChars n).selected.length := by
        rw [selected, List.length_append]
        exact Nat.le_add_right (afterPrimary tables hits profile maxChars).selected.length _
      have bound := (List.getElem?_eq_some_iff.mp found).1
      rw [same] at bound
      omega
    · rw [same] at full
      omega
    · refine Or.inl ?_
      rwa [last.chars, same, ← first.chars] at tooLong
    · refine Or.inr ?_
      rwa [last.keys, same, ← first.keys] at similar
  · intro blocked
    rw [finalState_eq]
    exact (relaxedAt_unchanged blocked _).1

/-- The counts per source add up exactly when the second pass selects nothing. -/
theorem total_iff
    : ((sourceStats (finalState tables hits profile maxChars).perSource).map
          (·.selectedCount)).sum = (finalState tables hits profile maxChars).selected.length
      ↔ (finalState tables hits profile maxChars).selected
          = (afterPrimary tables hits profile maxChars).selected := by
  obtain ⟨extra, selected, -, -⟩ := afterPrimary_final tables hits profile maxChars
  rw [sourceStats_total, finalState_perSource, finalState_perSource, finalState_perSource,
    length_by_source, selected, List.length_append, List.append_right_eq_self,
    ← List.length_eq_zero_iff]
  omega

end Result

/-! ## Every selection -/

/-- The report is true and the selection justified exactly when the second pass has nothing to
select and no hit with text is compared with one without.
-/
theorem selection_truthful_iff (tables : TextTables) (hits : List ArchiveSearchHit)
    (profile : MemoryProfile) (maxChars : Nat)
    : TruthfulSelection tables hits profile maxChars
      ↔ Undisturbed tables hits profile maxChars := by
  obtain ⟨hitsEq, selectedEq, relaxedEq, statsEq⟩ :=
    result_eq tables hits profile maxChars
  constructor
  · intro truthful
    have total := truthful.total
    dsimp only at total
    rw [statsEq, hitsEq] at total
    exact ⟨nothingRelaxed_iff.mp (total_iff.mp total), similar_iff_notBlinded.mp truthful.similar⟩
  · rintro ⟨nothingRelaxed, notBlinded⟩
    have same := nothingRelaxed_iff.mpr nothingRelaxed
    have last := finalState_consistent tables hits profile maxChars
    have counted := (afterPrimary_facts tables hits profile maxChars).2
    obtain ⟨extra, selected, relaxed, -⟩ := afterPrimary_final tables hits profile maxChars
    refine ⟨?_, ?_, similar_iff_notBlinded.mpr notBlinded, ?_, ?_, ?_, ⟨?_, ?_⟩, ?_⟩
    · rw [hitsEq, ← last.chars]
      exact last.withinChars
    · rw [hitsEq]
      exact last.withinItems
    · exact selectedEq.trans (congrArg List.length hitsEq).symm
    · dsimp only
      rw [statsEq, hitsEq]
      exact total_iff.mpr same
    · intro source
      dsimp only
      rw [statsEq, hitsEq, sourceStats_of, finalState_perSource, same]
    · refine ⟨extra, hitsEq.trans selected, ?_⟩
      rw [relaxedEq, relaxed, counted.relaxed, Nat.zero_add]
    · intro source
      rw [← counted.perSource]
      exact counted.quota source
    · intro n prepared here
      dsimp only
      rw [hitsEq, ← prepared.key_eq, ← prepared.len_eq, ← last.chars, ← last.keys]
      exact deferred_complete here

def plainTables : TextTables where
  isAlphanumeric := Graph.isAsciiAlphanumeric
  toLowercase := fun c => [c]
  sha256 := id

def transcriptHit (title : String) (score : Nat) : ArchiveSearchHit where
  citation := title
  source := .transcript
  title := title
  excerpt := ""
  score := score
  cues := []
  observedAt := none
  retrievalTrace := none

/-- Three hits of one source with a quota of two. -/
def threeTranscripts : List ArchiveSearchHit :=
  [transcriptHit "alpha" 3, transcriptHit "bravo" 2, transcriptHit "delta" 1]

/-- A hit without letters or digits before one with text. -/
def blankFirst : List ArchiveSearchHit :=
  [transcriptHit "!" 2, transcriptHit "alpha" 1]

theorem blankFirst_similar
    : ∃ selected hit, Met plainTables blankFirst .standard 768 .similar selected hit
        ∧ ¬ ∃ earlier ∈ selected, CommonText (normalizedSimilarityKey plainTables earlier)
            (normalizedSimilarityKey plainTables hit) := by
  let prepared : PreparedArchivePromptHit plainTables :=
    ⟨transcriptHit "alpha" 1, _, _, rfl, rfl⟩
  have here : (consideredHits plainTables blankFirst .standard 768)[1]? = some prepared := rfl
  have met := Met.primary here
  have outcome : primaryOutcome (selectorPolicy .standard 768)
      (primaryAt plainTables blankFirst .standard 768 1) prepared = .similar := by
    decide +kernel
  rw [outcome] at met
  refine ⟨_, _, met, ?_⟩
  have keys : (primaryAt plainTables blankFirst .standard 768 1).selected.map
      (normalizedSimilarityKey plainTables) = [""] := by
    decide +kernel
  rintro ⟨earlier, member, common⟩
  have listed := List.mem_map_of_mem (f := normalizedSimilarityKey plainTables) member
  rw [keys, List.mem_singleton] at listed
  obtain ⟨c, inside, -⟩ := commonText_iff.mp common
  rw [listed] at inside
  exact List.not_mem_nil inside

/-- Of three selected hits two are counted, and a hit is skipped as similar to one without
text.
-/
theorem selection_not_truthful
    : ¬ TruthfulSelection plainTables threeTranscripts .standard 768
      ∧ ¬ TruthfulSelection plainTables blankFirst .standard 768 := by
  constructor
  · intro truthful
    exact absurd truthful.total (by decide +kernel)
  · intro truthful
    obtain ⟨selected, hit, met, alone⟩ := blankFirst_similar
    exact alone (truthful.similar selected hit met)

end BeetleMemory.Archive
