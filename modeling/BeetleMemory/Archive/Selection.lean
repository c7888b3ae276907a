import BeetleMemory.Archive.Selector

/-! What the two passes establish: lengths and places are kept, every source keeps its quota in the
first pass, and the second pass leaves out only what has no place, does not fit or is similar.
-/

namespace BeetleMemory.Archive

open BeetleMemory.Graph (TextTables hasPart splitWhitespace)

/-! ## Texts in common -/

/-- Some text that is not empty occurs in both. -/
def CommonText (left right : String) : Prop :=
  ∃ part : List Char, part ≠ [] ∧ part <:+: left.toList ∧ part <:+: right.toList

theorem commonText_iff {left right : String}
    : CommonText left right ↔ ∃ c ∈ left.toList, c ∈ right.toList := by
  constructor
  · rintro ⟨part, nonempty, inLeft, inRight⟩
    obtain ⟨c, member⟩ := List.exists_mem_of_ne_nil part nonempty
    exact ⟨c, inLeft.subset member, inRight.subset member⟩
  · rintro ⟨c, inLeft, inRight⟩
    have single {text : List Char} (member : c ∈ text) : [c] <:+: text := by
      obtain ⟨before, after, rfl⟩ := List.append_of_mem member
      exact ⟨before, after, by simp⟩
    exact ⟨[c], List.cons_ne_nil c [], single inLeft, single inRight⟩

theorem hasPart_subset {text part : String} (found : hasPart text part = true)
    : part.toList ⊆ text.toList := by
  obtain ⟨tail, isTail, starts⟩ := List.any_eq_true.mp found
  have suffix : tail <:+ text.toList := (List.mem_tails _ _).mp isTail
  exact List.Subset.trans (List.isPrefixOf_iff_prefix.mp starts).subset suffix.subset

theorem mem_of_mem_splitOnP {α : Type} {test : α → Bool} {items part : List α}
    (member : part ∈ items.splitOnP test)
    : part ⊆ items := by
  induction items generalizing part with
  | nil =>
      obtain rfl : part = [] := by simpa using member
      exact List.nil_subset _
  | cons a rest ih =>
      rw [List.splitOnP_cons_eq_if_modifyHead] at member
      split_ifs at member with cut
      · rcases List.mem_cons.mp member with rfl | later
        · exact List.nil_subset _
        · exact List.subset_cons_of_subset a (ih later)
      · cases parts : rest.splitOnP test with
        | nil => simp [parts] at member
        | cons first others =>
            rw [parts, List.modifyHead_cons] at member
            rcases List.mem_cons.mp member with rfl | later
            · exact List.cons_subset_cons a (ih (by simp [parts]))
            · exact List.subset_cons_of_subset a (ih (parts ▸ List.mem_cons_of_mem first later))

theorem sharedArchiveTerms_common {a b : String} (shared : 0 < sharedArchiveTerms a b)
    : CommonText a b := by
  obtain ⟨term, inA, both⟩ := List.countP_pos_iff.mp shared
  simp only [Bool.and_eq_true, List.contains_iff_mem] at both
  simp only [splitWhitespace, List.mem_filter, decide_eq_true_eq] at inA both
  obtain ⟨c, member⟩ := List.exists_mem_of_ne_nil term inA.2
  exact commonText_iff.mpr
    ⟨c, mem_of_mem_splitOnP inA.1 member, mem_of_mem_splitOnP both.2.1 member⟩

/-- A candidate that is too similar to selected hits has text in common with one of them, unless
one of them has no text at all.
-/
theorem common_or_empty_of_isTooSimilar {existingKeys : List String} {candidateKey : String}
    (similar : isTooSimilar existingKeys candidateKey = true)
    : candidateKey ≠ "" ∧ ∃ existing ∈ existingKeys,
        existing = "" ∨ CommonText existing candidateKey := by
  rw [isTooSimilar] at similar
  split_ifs at similar with empty
  have nonempty : candidateKey ≠ "" := fun same => empty (same ▸ rfl)
  obtain ⟨existing, member, reason⟩ := List.any_eq_true.mp similar
  refine ⟨nonempty, existing, member, or_iff_not_imp_left.mpr fun notEmpty => ?_⟩
  have someChar {text : String} (nonempty : text ≠ "") : ∃ c, c ∈ text.toList :=
    List.exists_mem_of_ne_nil _ fun none => nonempty (String.toList_eq_nil_iff.mp none)
  simp only [Bool.or_eq_true, beq_iff_eq, decide_eq_true_eq] at reason
  rcases reason with ((same | contains) | contained) | shared
  · obtain ⟨c, inside⟩ := someChar nonempty
    exact commonText_iff.mpr ⟨c, same ▸ inside, inside⟩
  · obtain ⟨c, inside⟩ := someChar nonempty
    exact commonText_iff.mpr ⟨c, hasPart_subset contains inside, inside⟩
  · obtain ⟨c, inside⟩ := someChar notEmpty
    exact commonText_iff.mpr ⟨c, inside, hasPart_subset contained inside⟩
  · exact sharedArchiveTerms_common (by omega)

/-- A hit without text makes every candidate with text too similar. -/
theorem isTooSimilar_of_empty {existingKeys : List String} {candidateKey : String}
    (nonempty : candidateKey ≠ "") (member : "" ∈ existingKeys)
    : isTooSimilar existingKeys candidateKey = true := by
  have contained : hasPart candidateKey "" = true := by
    refine List.any_eq_true.mpr ⟨candidateKey.toList, (List.mem_tails _ _).mpr List.suffix_rfl, ?_⟩
    simp
  have notEmpty : candidateKey.isEmpty = false := by simpa using nonempty
  rw [isTooSimilar, notEmpty]
  simp only [Bool.false_eq_true, ↓reduceIte, List.any_eq_true]
  exact ⟨"", member, by simp [contained]⟩

/-! ## What both passes keep -/

section Passes

variable {tables : TextTables} {policy : ArchiveSelectorPolicy} {state : SelectorState tables}
  {prepared : PreparedArchivePromptHit tables}

/-- The running totals are those of the selected hits and stay within the policy. -/
structure Consistent (policy : ArchiveSelectorPolicy) (state : SelectorState tables) : Prop where
  keys : state.similarityKeys = state.selected.map (normalizedSimilarityKey tables)
  chars : state.usedChars = (state.selected.map archivePromptLineLen).sum
  withinChars : state.usedChars ≤ policy.maxChars
  withinItems : state.selected.length ≤ policy.maxItems

theorem Consistent.start : Consistent policy ({} : SelectorState tables) :=
  ⟨rfl, rfl, Nat.zero_le _, Nat.zero_le _⟩

/-- Selecting a hit that fits keeps the totals; other fields of the state do not matter. -/
theorem Consistent.select (consistent : Consistent policy state)
    (room : ¬ policy.maxItems ≤ state.selected.length)
    (fits : ¬ policy.maxChars < state.usedChars + prepared.promptLineLen) (reason : String)
    {next : SelectorState tables}
    (selected : next.selected = state.selected ++ [annotateSelectorReason prepared.hit reason])
    (usedChars : next.usedChars = state.usedChars + prepared.promptLineLen)
    (similarityKeys : next.similarityKeys = state.similarityKeys ++ [prepared.similarityKey])
    : Consistent policy next where
  keys := by
    rw [similarityKeys, selected, consistent.keys, prepared.key_eq, List.map_append]
    rfl
  chars := by
    rw [usedChars, selected, consistent.chars, prepared.len_eq, List.map_append, List.sum_append]
    simp [annotateSelectorReason, archivePromptLineLen]
  withinChars := by omega
  withinItems := by
    rw [selected, List.length_append, List.length_singleton]
    omega

theorem Consistent.primaryStep (consistent : Consistent policy state)
    : Consistent policy (primaryStep policy state prepared) := by
  rw [Archive.primaryStep, primaryOutcome]
  split_ifs with full tooLong overQuota similar
  · exact consistent
  · exact ⟨consistent.keys, consistent.chars, consistent.withinChars, consistent.withinItems⟩
  · exact ⟨consistent.keys, consistent.chars, consistent.withinChars, consistent.withinItems⟩
  · exact ⟨consistent.keys, consistent.chars, consistent.withinChars, consistent.withinItems⟩
  · exact consistent.select full tooLong _ rfl rfl rfl

theorem Consistent.relaxedStep (consistent : Consistent policy state)
    : Consistent policy (relaxedStep policy state prepared) := by
  rw [Archive.relaxedStep, relaxedOutcome]
  split_ifs with full tooLong similar
  · exact consistent
  · exact ⟨consistent.keys, consistent.chars, consistent.withinChars, consistent.withinItems⟩
  · exact ⟨consistent.keys, consistent.chars, consistent.withinChars, consistent.withinItems⟩
  · exact consistent.select full tooLong _ rfl rfl rfl

/-! ## The first pass -/

/-- The counts are those of the selected hits, and no source has more than its quota. -/
structure Counted (policy : ArchiveSelectorPolicy) (state : SelectorState tables) : Prop where
  perSource : ∀ source, state.perSource source = state.selected.countP (·.source = source)
  quota : ∀ source, state.perSource source ≤ sourceQuota policy source
  relaxed : state.relaxedQuotaSelected = 0

theorem Counted.start : Counted policy ({} : SelectorState tables) :=
  ⟨fun _ => rfl, fun _ => Nat.zero_le _, rfl⟩

theorem Counted.primaryStep (counted : Counted policy state)
    : Counted policy (primaryStep policy state prepared) := by
  rw [Archive.primaryStep, primaryOutcome]
  split_ifs with full tooLong overQuota similar
  · exact counted
  · exact ⟨counted.perSource, counted.quota, counted.relaxed⟩
  · exact ⟨counted.perSource, counted.quota, counted.relaxed⟩
  · exact ⟨counted.perSource, counted.quota, counted.relaxed⟩
  · refine ⟨fun source => ?_, fun source => ?_, counted.relaxed⟩
    · rw [List.countP_append, ← counted.perSource]
      by_cases same : source = prepared.hit.source
      · subst same
        simp [annotateSelectorReason]
      · simp [annotateSelectorReason, Function.update_of_ne same, Ne.symm same]
    · by_cases same : source = prepared.hit.source
      · subst same
        dsimp only
        rw [Function.update_self]
        omega
      · dsimp only
        rw [Function.update_of_ne same]
        exact counted.quota source

theorem primaryPass_facts (preparedHits : List (PreparedArchivePromptHit tables))
    : Consistent policy (primaryPass policy preparedHits)
      ∧ Counted policy (primaryPass policy preparedHits) := by
  rw [primaryPass, ← Runs.stateAt_length]
  exact ⟨Runs.invariant Consistent.start (fun _ _ => Consistent.primaryStep) _,
    Runs.invariant Counted.start (fun _ _ => Counted.primaryStep) _⟩

/-! ## The second pass -/

/-- Without a free place the pass does nothing, so it need not be left out. -/
theorem relaxedPass_eq
    : relaxedPass policy state = state.deferred.foldl (relaxedStep policy) state := by
  rw [relaxedPass]
  split_ifs with room
  · rfl
  · have stays (items : List (PreparedArchivePromptHit tables))
        : items.foldl (relaxedStep policy) state = state := by
      induction items with
      | nil => rfl
      | cons item rest ih =>
          rw [List.foldl_cons, relaxedStep, relaxedOutcome, if_pos (Nat.not_lt.mp room)]
          exact ih
    exact (stays _).symm

/-- The pass has added hits and nothing else to what was selected and counted. -/
def Relaxed (base state : SelectorState tables) : Prop :=
  ∃ extra, state.selected = base.selected ++ extra
    ∧ state.relaxedQuotaSelected = base.relaxedQuotaSelected + extra.length
    ∧ state.perSource = base.perSource

theorem Relaxed.refl (state : SelectorState tables) : Relaxed state state :=
  ⟨[], by simp, rfl, rfl⟩

theorem Relaxed.trans {a b c : SelectorState tables} (first : Relaxed a b) (second : Relaxed b c)
    : Relaxed a c := by
  obtain ⟨extra, selected, relaxed, perSource⟩ := first
  obtain ⟨more, selected', relaxed', perSource'⟩ := second
  refine ⟨extra ++ more, by simp [selected, selected'], ?_, perSource'.trans perSource⟩
  rw [relaxed', relaxed, List.length_append]
  omega

theorem Relaxed.step (state : SelectorState tables) (prepared : PreparedArchivePromptHit tables)
    : Relaxed state (relaxedStep policy state prepared) := by
  rw [relaxedStep, relaxedOutcome]
  split_ifs
  · exact Relaxed.refl state
  · exact ⟨[], by simp, rfl, rfl⟩
  · exact ⟨[], by simp, rfl, rfl⟩
  · exact ⟨[_], rfl, rfl, rfl⟩

end Passes

end BeetleMemory.Archive
