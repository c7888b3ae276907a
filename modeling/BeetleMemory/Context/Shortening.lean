import BeetleMemory.Context.Window
import Mathlib

/-! What the shortening of a message window drops and keeps. The first pass drops unprotected
messages, oldest first, and only counts what is left; so a summary or a marked message that is
kept lets it drop the current message too.
-/

namespace BeetleMemory.Context

variable {messages : List Message} {maxLen : Nat} {protectedIdx summaryIdx : Option Nat}

/-! ## The first pass -/

/-- The length of the message at an index. -/
def lenAt (messages : List Message) (index : Nat) : Nat :=
  (messages[index]?.map messageLen).getD 0

/-- The length of what is left when the indices are removed. -/
def leftLen (messages : List Message) (removed : List Nat) : Nat :=
  ∑ index ∈ Finset.range messages.length with index ∉ removed, lenAt messages index

theorem leftLen_nil (messages : List Message) : leftLen messages [] = totalLen messages := by
  simp only [leftLen, List.not_mem_nil, not_false_eq_true, Finset.filter_true, totalLen]
  induction messages with
  | nil => rfl
  | cons message rest ih =>
      rw [List.length_cons, Finset.sum_range_succ', List.map_cons, List.sum_cons, ← ih,
        Nat.add_comm]
      congr 1

theorem leftLen_concat {removed : List Nat} {index : Nat} (inside : index < messages.length)
    (fresh : index ∉ removed)
    : leftLen messages (removed ++ [index]) = leftLen messages removed - lenAt messages index := by
  have member : index ∈ (Finset.range messages.length).filter (· ∉ removed) := by
    simpa using ⟨inside, fresh⟩
  have same : (Finset.range messages.length).filter (· ∉ removed ++ [index])
      = ((Finset.range messages.length).filter (· ∉ removed)).erase index := by
    ext other
    simp only [Finset.mem_filter, Finset.mem_range, List.mem_append, List.mem_singleton,
      Finset.mem_erase, not_or]
    tauto
  rw [leftLen, same, leftLen, ← Finset.add_sum_erase _ _ member]
  omega

/-- The message at the index is exempt from the first pass. -/
def Exempt (protectedIdx summaryIdx : Option Nat) (index : Nat) : Prop :=
  some index = protectedIdx ∨ some index = summaryIdx

instance : DecidablePred (Exempt protectedIdx summaryIdx) :=
  fun _ => inferInstanceAs (Decidable (_ ∨ _))

/-- The indices removed below an index. -/
def removedBefore (removed : List Nat) (index : Nat) : List Nat :=
  removed.filter (· < index)

/-- What every removal of the first pass has to go by: the message is not exempt, what was left
then was too long and more than one message, and every older one that is not exempt went first.
-/
structure Removals (messages : List Message) (maxLen : Nat) (protectedIdx summaryIdx : Option Nat)
    (removed : List Nat)
    : Prop where
  increasing : removed.Pairwise (· < ·)
  inside : ∀ index ∈ removed, index < messages.length
  unprotected : ∀ index ∈ removed, ¬Exempt protectedIdx summaryIdx index
  needed : ∀ index ∈ removed, maxLen < leftLen messages (removedBefore removed index)
  several : ∀ index ∈ removed, 1 < messages.length - (removedBefore removed index).length
  oldest : ∀ index ∈ removed, ∀ older < index, ¬Exempt protectedIdx summaryIdx older
    → older ∈ removed

/-- Why the first pass stops. -/
def Finished (messages : List Message) (maxLen : Nat) (protectedIdx summaryIdx : Option Nat)
    (removed : List Nat)
    : Prop :=
  leftLen messages removed ≤ maxLen
    ∨ (∀ index < messages.length, ¬Exempt protectedIdx summaryIdx index → index ∈ removed)
    ∨ messages.length - removed.length ≤ 1

theorem Removals.concat {removed : List Nat} {index : Nat}
    (removals : Removals messages maxLen protectedIdx summaryIdx removed)
    (below : ∀ older ∈ removed, older < index)
    (complete : ∀ older < index, ¬Exempt protectedIdx summaryIdx older → older ∈ removed)
    (inside : index < messages.length) (unprotected : ¬Exempt protectedIdx summaryIdx index)
    (needed : maxLen < leftLen messages removed) (several : 1 < messages.length - removed.length)
    : Removals messages maxLen protectedIdx summaryIdx (removed ++ [index]) := by
  have whole : removedBefore (removed ++ [index]) index = removed := by
    simpa [removedBefore] using below
  have earlier : ∀ older ∈ removed,
      removedBefore (removed ++ [index]) older = removedBefore removed older := by
    intro older member
    have order := below older member
    simp [removedBefore, List.filter_append, List.filter_cons_of_neg, not_lt.mpr order.le]
  refine ⟨?_, ?_, ?_, ?_, ?_, ?_⟩
  · exact List.pairwise_append.mpr ⟨removals.increasing, by simp, by simpa using below⟩
  all_goals
    intro other member
    rcases List.mem_append.mp member with old | new
  · exact removals.inside other old
  · rwa [List.mem_singleton.mp new]
  · exact removals.unprotected other old
  · rwa [List.mem_singleton.mp new]
  · rw [earlier other old]
    exact removals.needed other old
  · rwa [List.mem_singleton.mp new, whole]
  · rw [earlier other old]
    exact removals.several other old
  · rwa [List.mem_singleton.mp new, whole]
  · intro older lower free
    exact List.mem_append_left _ (removals.oldest other old older lower free)
  · intro older lower free
    rw [List.mem_singleton.mp new] at lower
    exact List.mem_append_left _ (complete older lower free)

/-- Two messages that are kept are left. -/
theorem Removals.two_left {removed : List Nat} {first second : Nat}
    (removals : Removals messages maxLen protectedIdx summaryIdx removed)
    (insideFirst : first < messages.length) (insideSecond : second < messages.length)
    (different : first ≠ second) (keptFirst : first ∉ removed) (keptSecond : second ∉ removed)
    : 1 < messages.length - removed.length := by
  have inner : removed.Subperm (((List.range messages.length).erase second).erase first) := by
    refine List.subperm_of_subset (removals.increasing.imp fun h => Nat.ne_of_lt h)
      fun index member => ?_
    have notFirst : index ≠ first := fun same => keptFirst (same ▸ member)
    have notSecond : index ≠ second := fun same => keptSecond (same ▸ member)
    refine (List.mem_erase_of_ne notFirst).mpr ((List.mem_erase_of_ne notSecond).mpr ?_)
    exact List.mem_range.mpr (removals.inside index member)
  have length := inner.length_le
  rw [List.length_erase_of_mem, List.length_erase_of_mem, List.length_range] at length
  · omega
  · exact List.mem_range.mpr insideSecond
  · exact (List.mem_erase_of_ne different).mpr (List.mem_range.mpr insideFirst)

/-- The loop from an index on: all older messages that are not exempt are removed already. -/
theorem firstPass_spec {done rest : List Message} {removed : List Nat}
    (whole : messages = done ++ rest)
    (removals : Removals messages maxLen protectedIdx summaryIdx removed)
    (below : ∀ older ∈ removed, older < done.length)
    (complete : ∀ older < done.length, ¬Exempt protectedIdx summaryIdx older → older ∈ removed)
    : let result := firstPass messages.length maxLen protectedIdx summaryIdx done.length
        (leftLen messages removed) removed rest
      Removals messages maxLen protectedIdx summaryIdx result.2
        ∧ Finished messages maxLen protectedIdx summaryIdx result.2
        ∧ result.1 = leftLen messages result.2 := by
  induction rest generalizing done removed with
  | nil =>
      refine ⟨removals, Or.inr (Or.inl ?_), rfl⟩
      rw [whole, List.append_nil]
      exact complete
  | cons message rest ih =>
      have inside : done.length < messages.length := by simp [whole]
      have next : messages = (done ++ [message]) ++ rest := by simp [whole]
      have length : (done ++ [message]).length = done.length + 1 := by simp
      have later : ∀ older < done.length + 1, older ≠ done.length → older < done.length :=
        fun older lower different => by omega
      simp only [firstPass]
      split_ifs with fits exempt single
      · exact ⟨removals, Or.inl fits, rfl⟩
      · have result := ih next removals (fun older member => by
            rw [length]
            exact (below older member).trans (Nat.lt_succ_self _))
          (fun older lower free => by
            rw [length] at lower
            refine complete older (later older lower ?_) free
            rintro rfl
            exact free exempt)
        rwa [length] at result
      · exact ⟨removals, Or.inr (Or.inr single), rfl⟩
      · have fresh : done.length ∉ removed := fun member => (below _ member).false
        have len : lenAt messages done.length = messageLen message := by simp [lenAt, whole]
        have step := removals.concat below complete inside exempt (not_le.mp fits)
          (not_le.mp single)
        have result := ih next step (fun older member => by
            rw [length]
            rcases List.mem_append.mp member with old | new
            · exact (below older old).trans (Nat.lt_succ_self _)
            · rw [List.mem_singleton.mp new]
              exact Nat.lt_succ_self _)
          (fun older lower free => by
            rw [length] at lower
            by_cases same : older = done.length
            · simp [same]
            · exact List.mem_append_left _ (complete older (later older lower same) free))
        rwa [length, leftLen_concat inside fresh, len] at result

/-! ## Both passes -/

/-- The index of the summary. -/
def summaryIndex (preserveSummary : Bool) : Option Nat :=
  if preserveSummary then some 0 else none

/-- What the first pass removes from all messages. -/
def historyRemoved (messages : List Message) (maxLen : Nat) (protectedIdx : Option Nat)
    (preserveSummary : Bool)
    : List Nat :=
  (firstPass messages.length maxLen protectedIdx (summaryIndex preserveSummary) 0
    (totalLen messages) [] messages).2

/-- The second pass removes the summary. -/
def SummaryRemoved (messages : List Message) (maxLen : Nat) (protectedIdx : Option Nat)
    (preserveSummary : Bool)
    : Prop :=
  let removed := historyRemoved messages maxLen protectedIdx preserveSummary
  maxLen < leftLen messages removed ∧ preserveSummary = true
    ∧ 1 < messages.length - removed.length ∧ some 0 ≠ protectedIdx

variable {preserveSummary : Bool}

theorem historyRemoved_spec (messages : List Message) (maxLen : Nat) (protectedIdx : Option Nat)
    (preserveSummary : Bool)
    : let removed := historyRemoved messages maxLen protectedIdx preserveSummary
      Removals messages maxLen protectedIdx (summaryIndex preserveSummary) removed
        ∧ Finished messages maxLen protectedIdx (summaryIndex preserveSummary) removed
        ∧ (firstPass messages.length maxLen protectedIdx (summaryIndex preserveSummary) 0
            (totalLen messages) [] messages).1 = leftLen messages removed := by
  have nothing : Removals messages maxLen protectedIdx (summaryIndex preserveSummary) [] :=
    ⟨.nil, by simp, by simp, by simp, by simp, by simp⟩
  have whole : messages = [] ++ messages := rfl
  have spec := firstPass_spec whole nothing (by simp) (by simp)
  rwa [leftLen_nil] at spec

instance : Decidable (SummaryRemoved messages maxLen protectedIdx preserveSummary) :=
  inferInstanceAs (Decidable (_ ∧ _))

theorem indicesToRemove_eq (messages : List Message) (maxLen : Nat) (protectedIdx : Option Nat)
    (preserveSummary : Bool)
    : indicesToRemove messages maxLen protectedIdx preserveSummary
      = (if SummaryRemoved messages maxLen protectedIdx preserveSummary then
          historyRemoved messages maxLen protectedIdx preserveSummary ++ [0]
        else historyRemoved messages maxLen protectedIdx preserveSummary).insertionSort
          (· ≤ ·) := by
  obtain ⟨-, -, total⟩ := historyRemoved_spec messages maxLen protectedIdx preserveSummary
  have same : SummaryRemoved messages maxLen protectedIdx preserveSummary
      ↔ maxLen < (firstPass messages.length maxLen protectedIdx (summaryIndex preserveSummary) 0
          (totalLen messages) [] messages).1
        ∧ (summaryIndex preserveSummary).isSome
        ∧ 1 < messages.length
          - (historyRemoved messages maxLen protectedIdx preserveSummary).length
        ∧ some 0 ≠ protectedIdx := by
    rw [total, SummaryRemoved]
    cases preserveSummary <;> simp [summaryIndex]
  simp only [same]
  rfl

theorem mem_indicesToRemove {index : Nat}
    : index ∈ indicesToRemove messages maxLen protectedIdx preserveSummary
      ↔ index ∈ historyRemoved messages maxLen protectedIdx preserveSummary
        ∨ index = 0 ∧ SummaryRemoved messages maxLen protectedIdx preserveSummary := by
  rw [indicesToRemove_eq, List.mem_insertionSort]
  split_ifs with removes <;> simp [removes]

/-- The summary is not removed by the first pass. -/
theorem summary_not_mem_historyRemoved (preserves : preserveSummary = true)
    : 0 ∉ historyRemoved messages maxLen protectedIdx preserveSummary := by
  obtain ⟨removals, -⟩ := historyRemoved_spec messages maxLen protectedIdx preserveSummary
  intro member
  exact removals.unprotected 0 member (Or.inr (by simp [summaryIndex, preserves]))

theorem indicesToRemove_increasing
    : (indicesToRemove messages maxLen protectedIdx preserveSummary).Pairwise (· < ·) := by
  obtain ⟨removals, -⟩ := historyRemoved_spec messages maxLen protectedIdx preserveSummary
  have distinct : (if SummaryRemoved messages maxLen protectedIdx preserveSummary then
      historyRemoved messages maxLen protectedIdx preserveSummary ++ [0]
    else historyRemoved messages maxLen protectedIdx preserveSummary).Nodup := by
    have history := removals.increasing.imp fun h => Nat.ne_of_lt h
    split_ifs with removes
    · refine List.nodup_append.mpr ⟨history, by simp, ?_⟩
      intro index member last isLast same
      rw [List.mem_singleton.mp isLast] at same
      exact summary_not_mem_historyRemoved removes.2.1 (same ▸ member)
    · exact history
  rw [indicesToRemove_eq]
  have sorted := List.pairwise_insertionSort (· ≤ · : Nat → Nat → Prop)
    (if SummaryRemoved messages maxLen protectedIdx preserveSummary then
      historyRemoved messages maxLen protectedIdx preserveSummary ++ [0]
    else historyRemoved messages maxLen protectedIdx preserveSummary)
  have apart := (List.perm_insertionSort (· ≤ · : Nat → Nat → Prop) _).nodup_iff.mpr distinct
  exact sorted.imp₂ (fun a b below different => lt_of_le_of_ne below different) apart

/-- The messages whose index is not among the removed ones. -/
def keptMessages (messages : List Message) (removed : List Nat) : List Message :=
  (messages.zipIdx.filter (·.2 ∉ removed)).map (·.1)

/-- The cursor over the sorted indices drops exactly the messages at these indices. -/
theorem keepUnlisted_eq {index : Nat} {removed : List Nat} (increasing : removed.Pairwise (· < ·))
    (ahead : ∀ other ∈ removed, index ≤ other)
    : keepUnlisted index removed messages
      = ((messages.zipIdx index).filter (·.2 ∉ removed)).map (·.1) := by
  induction messages generalizing index removed with
  | nil => cases removed <;> rfl
  | cons message rest ih =>
      cases removed with
      | nil =>
          simp only [keepUnlisted, ih List.Pairwise.nil (by simp), List.zipIdx_cons]
          simp
      | cons next later =>
          obtain ⟨after, increasing'⟩ := List.pairwise_cons.mp increasing
          simp only [keepUnlisted, List.zipIdx_cons]
          split_ifs with here
          · subst here
            rw [ih increasing' fun other member => after other member]
            have same : (rest.zipIdx (next + 1)).filter (·.2 ∉ later)
                = (rest.zipIdx (next + 1)).filter (·.2 ∉ next :: later) := by
              refine List.filter_congr fun pair member => ?_
              have bound := List.le_snd_of_mem_zipIdx member
              have different : pair.2 ≠ next := by omega
              simp [different]
            rw [List.filter_cons_of_neg (by simp), same]
          · have behind : index < next :=
              lt_of_le_of_ne (ahead next (by simp)) (Ne.symm here)
            have fresh : index ∉ next :: later := by
              intro member
              rcases List.mem_cons.mp member with same | member
              · exact here same.symm
              · exact absurd (after index member) (not_lt.mpr behind.le)
            rw [ih increasing fun other member => ?_]
            · rw [List.filter_cons_of_pos (by simpa using fresh), List.map_cons]
            · rcases List.mem_cons.mp member with rfl | member
              · exact behind
              · exact behind.trans (after other member)

theorem truncateMessagesToLen_eq (messages : List Message) (maxLen : Nat)
    (protectedIdx : Option Nat) (preserveSummary : Bool)
    : truncateMessagesToLen messages maxLen protectedIdx preserveSummary
      = mergeConsecutiveSameRole (keptMessages messages
          (indicesToRemove messages maxLen protectedIdx preserveSummary)) := by
  rw [truncateMessagesToLen, keepUnlisted_eq indicesToRemove_increasing (by simp), keptMessages]

/-! ## The last message -/

/-- The last message stays: it is protected itself, nothing is exempt, or it fits together with
what is exempt.
-/
def KeepsLast (messages : List Message) (maxLen : Nat) (protectedIdx : Option Nat)
    (preserveSummary : Bool)
    : Prop :=
  protectedIdx = some (messages.length - 1)
    ∨ protectedIdx = none ∧ preserveSummary = false
    ∨ ∑ index ∈ Finset.range messages.length
        with Exempt protectedIdx (summaryIndex preserveSummary) index
          ∨ index = messages.length - 1, lenAt messages index ≤ maxLen

instance : Decidable (KeepsLast messages maxLen protectedIdx preserveSummary) :=
  inferInstanceAs (Decidable (_ ∨ _))

/-- When the last message is removed, every older one that is not exempt is. -/
theorem Removals.before_last {removed : List Nat}
    (removals : Removals messages maxLen protectedIdx summaryIdx removed)
    (last : messages.length - 1 ∈ removed)
    : ∀ index < messages.length, index ∉ removedBefore removed (messages.length - 1)
        ↔ Exempt protectedIdx summaryIdx index ∨ index = messages.length - 1 := by
  intro index inside
  simp only [removedBefore, List.mem_filter, decide_eq_true_eq, not_and, not_lt]
  constructor
  · intro kept
    by_cases same : index = messages.length - 1
    · exact Or.inr same
    · refine Or.inl (not_not.mp fun free => ?_)
      have member := removals.oldest _ last index (by omega) free
      have late := kept member
      omega
  · rintro (exempt | rfl) member
    · exact absurd exempt (removals.unprotected index member)
    · exact le_rfl

/-- The last message is removed only when it does not fit together with what is exempt, and
something else is exempt.
-/
theorem last_not_removed (keeps : KeepsLast messages maxLen protectedIdx preserveSummary)
    : messages.length - 1 ∉ historyRemoved messages maxLen protectedIdx preserveSummary := by
  obtain ⟨removals, -⟩ := historyRemoved_spec messages maxLen protectedIdx preserveSummary
  intro last
  have before := removals.before_last last
  have free := removals.unprotected _ last
  rcases keeps with marked | ⟨unmarked, unsummarised⟩ | fits
  · exact free (Or.inl marked.symm)
  · have none : ∀ index, ¬Exempt protectedIdx (summaryIndex preserveSummary) index := by
      simp [Exempt, unmarked, unsummarised, summaryIndex]
    have several := removals.several _ last
    have all : (List.range (messages.length - 1)).Subperm
        (removedBefore (historyRemoved messages maxLen protectedIdx preserveSummary)
          (messages.length - 1)) := by
      refine List.subperm_of_subset List.nodup_range fun index member => ?_
      have below := List.mem_range.mp member
      by_contra absent
      rcases (before index (by omega)).mp absent with exempt | same
      · exact none index exempt
      · omega
    have length := all.length_le
    rw [List.length_range] at length
    omega
  · have needed := removals.needed _ last
    have same : leftLen messages (removedBefore
          (historyRemoved messages maxLen protectedIdx preserveSummary) (messages.length - 1))
        = ∑ index ∈ Finset.range messages.length
          with Exempt protectedIdx (summaryIndex preserveSummary) index
            ∨ index = messages.length - 1, lenAt messages index := by
      rw [leftLen]
      congr 1
      ext index
      simp only [Finset.mem_filter, Finset.mem_range]
      exact and_congr_right fun inside => before index inside
    omega

/-- In all other cases the last message is removed. -/
theorem last_removed (keeps : ¬KeepsLast messages maxLen protectedIdx preserveSummary)
    (summary : preserveSummary = true → 1 < messages.length) (nonempty : messages ≠ [])
    (marked : ∀ index ∈ protectedIdx, index < messages.length)
    : messages.length - 1 ∈ historyRemoved messages maxLen protectedIdx preserveSummary := by
  obtain ⟨removals, finished, -⟩ :=
    historyRemoved_spec messages maxLen protectedIdx preserveSummary
  have positive := List.length_pos_iff.mpr nonempty
  simp only [KeepsLast, not_or, not_and, Bool.not_eq_false, not_le] at keeps
  obtain ⟨unmarked, exempts, large⟩ := keeps
  have free : ¬Exempt protectedIdx (summaryIndex preserveSummary) (messages.length - 1) := by
    rintro (same | same)
    · exact unmarked same.symm
    · cases preserves : preserveSummary with
      | false => simp [summaryIndex, preserves] at same
      | true =>
          have several := summary preserves
          simp only [summaryIndex, preserves, if_true, Option.some.injEq] at same
          omega
  by_contra kept
  rcases finished with fits | all | single
  · have part : ∑ index ∈ Finset.range messages.length
        with Exempt protectedIdx (summaryIndex preserveSummary) index
          ∨ index = messages.length - 1, lenAt messages index
        ≤ leftLen messages (historyRemoved messages maxLen protectedIdx preserveSummary) := by
      refine Finset.sum_le_sum_of_subset fun index member => ?_
      simp only [Finset.mem_filter, Finset.mem_range] at member ⊢
      refine ⟨member.1, fun removed => ?_⟩
      rcases member.2 with exempt | rfl
      · exact removals.unprotected index removed exempt
      · exact kept removed
    omega
  · exact kept (all _ (by omega) free)
  · obtain ⟨other, inside, exempt⟩ : ∃ other < messages.length,
        Exempt protectedIdx (summaryIndex preserveSummary) other := by
      cases found : protectedIdx with
      | some index => exact ⟨index, marked index found, Or.inl rfl⟩
      | none =>
          have preserves := exempts found
          exact ⟨0, positive, Or.inr (by simp [summaryIndex, preserves])⟩
    have different : other ≠ messages.length - 1 := fun same => free (same ▸ exempt)
    have otherKept : other ∉ historyRemoved messages maxLen protectedIdx preserveSummary :=
      fun removed => removals.unprotected other removed exempt
    have several := removals.two_left inside (by omega) different otherKept kept
    omega

end BeetleMemory.Context
