import BeetleMemory.Context.Contents

/-! What a built window keeps of the conversation, and when it keeps the current message.
-/

namespace BeetleMemory.Context

/-- What a window is built from, once the history is read. -/
structure Conversation where
  summaryText : Option String
  recent : List SessionMessage
  importantOffset : Option Nat
  current : String
deriving DecidableEq, Repr

namespace Conversation

/-- All messages before they are shortened. -/
def messages (conversation : Conversation) : List Message :=
  (assembled conversation.summaryText conversation.recent conversation.current).1

/-- The index of the message that holds the marked entry. -/
def markedIndex (conversation : Conversation) : Option Nat :=
  protectedIndex (assembled conversation.summaryText conversation.recent conversation.current).2
    conversation.importantOffset

/-- The index of the message that holds the current one. -/
def lastIndex (conversation : Conversation) : Nat :=
  conversation.messages.length - 1

/-- The message at the index holds the marked entry or is the summary. -/
def Protects (conversation : Conversation) (index : Nat) : Prop :=
  Exempt conversation.markedIndex (summaryIndex conversation.summaryText.isSome) index

instance (conversation : Conversation) : DecidablePred conversation.Protects :=
  fun index => inferInstanceAs (Decidable (Exempt _ _ index))

/-- The indices of the messages that are dropped. -/
def dropped (conversation : Conversation) (maxLen : Nat) : List Nat :=
  indicesToRemove conversation.messages maxLen conversation.markedIndex
    conversation.summaryText.isSome

/-- The summary, the marked and the current message need not all be there or fit the limit. -/
def KeepsCurrent (conversation : Conversation) (maxLen : Nat) : Prop :=
  KeepsLast conversation.messages maxLen conversation.markedIndex conversation.summaryText.isSome

instance (conversation : Conversation) (maxLen : Nat)
    : Decidable (conversation.KeepsCurrent maxLen) :=
  inferInstanceAs (Decidable (KeepsLast _ _ _ _))

end Conversation

/-- The window keeps the current message and the marked entry, keeps the order, drops only while
the rest is too long, unprotected messages oldest first and the summary after them, and is short
enough unless only the messages of the current and the marked content are left.
-/
structure KeepsContext (conversation : Conversation) (maxLen : Nat) (dropped : List Nat)
    (window : List Message)
    : Prop where
  kept : conversation.lastIndex ∉ dropped
  current : ∃ last, window.getLast? = some last ∧ last.role = "user"
    ∧ EndsWith last.content conversation.current
  marked : ∀ offset ∈ conversation.importantOffset, offset < conversation.recent.length →
    ∃ entry, conversation.recent.reverse[offset]? = some entry
      ∧ ∃ message ∈ window, Contains message.content entry.content
  order : joinLines (window.map (·.content))
    = joinLines (((pieces conversation.summaryText conversation.recent
        conversation.current).filter (·.1 ∉ dropped)).map (·.2))
  needed : ∀ index ∈ dropped, ¬conversation.Protects index →
    maxLen < leftLen conversation.messages
      (dropped.filter fun other => other < index ∧ ¬conversation.Protects other)
  oldest : ∀ index ∈ dropped, ¬conversation.Protects index →
    ∀ older < index, ¬conversation.Protects older → older ∈ dropped
  summary : ∀ index ∈ dropped, conversation.Protects index →
    some index ≠ conversation.markedIndex
      ∧ (∀ other < conversation.messages.length, ¬conversation.Protects other
          → other ∈ dropped)
      ∧ maxLen < leftLen conversation.messages
          (dropped.filter fun other => ¬conversation.Protects other)
  fits : totalLen window ≤ maxLen
    ∨ ∀ index < conversation.messages.length, index ∉ dropped →
        index = conversation.lastIndex ∨ some index = conversation.markedIndex

variable {conversation : Conversation} {maxLen : Nat}

/-! ## The marked entry -/

theorem piece_of_index {position index : Nat} {entry : SessionMessage}
    (found : (assembled conversation.summaryText conversation.recent
      conversation.current).2[position]? = some index)
    (listed : conversation.recent[position]? = some entry)
    : (index, entry.content) ∈ pieces conversation.summaryText conversation.recent
        conversation.current := by
  have zipped : ((assembled conversation.summaryText conversation.recent
      conversation.current).2.zip (conversation.recent.map (·.content)))[position]?
      = some (index, entry.content) := by
    rw [List.getElem?_zip_eq_some]
    simp [found, listed]
  simp only [pieces, List.mem_append]
  exact Or.inl (Or.inr (List.mem_of_getElem? zipped))

theorem indices_length
    : (assembled conversation.summaryText conversation.recent conversation.current).2.length
      = conversation.recent.length :=
  pushHistory_length _ _

/-- The marked index is the one of the marked entry. -/
theorem markedIndex_eq {index : Nat} (marked : conversation.markedIndex = some index)
    : ∃ offset entry, conversation.importantOffset = some offset
      ∧ conversation.recent.reverse[offset]? = some entry
      ∧ (index, entry.content) ∈ pieces conversation.summaryText conversation.recent
          conversation.current := by
  rw [Conversation.markedIndex, protectedIndex] at marked
  obtain ⟨offset, pointed, found⟩ := Option.bind_eq_some_iff.mp marked
  rw [indices_length] at found
  split_ifs at found with outside
  have inside := not_le.mp outside
  obtain ⟨entry, listed⟩ : ∃ entry,
      conversation.recent[conversation.recent.length - (1 + offset)]? = some entry :=
    ⟨_, List.getElem?_eq_getElem (by omega)⟩
  refine ⟨offset, entry, pointed, ?_, piece_of_index found listed⟩
  rw [List.getElem?_reverse inside, ← listed]
  congr 1
  omega

theorem markedIndex_isSome {offset : Nat} (pointed : conversation.importantOffset = some offset)
    (inside : offset < conversation.recent.length)
    : ∃ index, conversation.markedIndex = some index := by
  have bound : conversation.recent.length - (1 + offset) < (assembled conversation.summaryText
      conversation.recent conversation.current).2.length := by
    rw [indices_length]
    omega
  obtain ⟨index, found⟩ : ∃ index, (assembled conversation.summaryText conversation.recent
      conversation.current).2[conversation.recent.length - (1 + offset)]? = some index :=
    ⟨_, List.getElem?_eq_getElem bound⟩
  refine ⟨index, Option.bind_eq_some_iff.mpr ⟨offset, pointed, ?_⟩⟩
  rw [indices_length, if_neg (by omega), found]

theorem markedIndex_lt {index : Nat} (marked : conversation.markedIndex = some index)
    : index < conversation.messages.length := by
  obtain ⟨_, _, _, _, piece⟩ := markedIndex_eq marked
  obtain ⟨message, found, -⟩ := contains_of_mem_pieces piece
  exact (List.getElem?_eq_some_iff.mp found).1

/-! ## Dropped messages -/

/-- The messages the first pass drops. -/
def Conversation.history (conversation : Conversation) (maxLen : Nat) : List Nat :=
  historyRemoved conversation.messages maxLen conversation.markedIndex
    conversation.summaryText.isSome

theorem mem_dropped {index : Nat}
    : index ∈ conversation.dropped maxLen ↔ index ∈ conversation.history maxLen
      ∨ index = 0 ∧ SummaryRemoved conversation.messages maxLen conversation.markedIndex
          conversation.summaryText.isSome :=
  mem_indicesToRemove

theorem history_spec (conversation : Conversation) (maxLen : Nat)
    : Removals conversation.messages maxLen conversation.markedIndex
        (summaryIndex conversation.summaryText.isSome) (conversation.history maxLen)
      ∧ Finished conversation.messages maxLen conversation.markedIndex
          (summaryIndex conversation.summaryText.isSome) (conversation.history maxLen) := by
  obtain ⟨removals, finished, -⟩ := historyRemoved_spec conversation.messages maxLen
    conversation.markedIndex conversation.summaryText.isSome
  exact ⟨removals, finished⟩

/-- The first pass drops what is dropped and unprotected. -/
theorem mem_history {index : Nat}
    : index ∈ conversation.history maxLen
      ↔ index ∈ conversation.dropped maxLen ∧ ¬conversation.Protects index := by
  rw [mem_dropped]
  constructor
  · intro member
    exact ⟨Or.inl member, (history_spec conversation maxLen).1.unprotected index member⟩
  · rintro ⟨member | ⟨rfl, removed⟩, free⟩
    · exact member
    · exact absurd (Or.inr (by simp [summaryIndex, removed.2.1])) free

theorem leftLen_congr {messages : List Message} {first second : List Nat}
    (same : ∀ index, index ∈ first ↔ index ∈ second)
    : leftLen messages first = leftLen messages second := by
  simp only [leftLen, same]

theorem messages_ne_nil : conversation.messages ≠ [] := by
  obtain ⟨last, found, -⟩ := getLast?_pushContextMessage
    (pushHistory (conversation.summaryText.toList.map fun summary =>
      Message.mk "user" (buildContextSummaryMessage summary)) conversation.recent).1
    "user" conversation.current
  intro none
  have same : conversation.messages.getLast? = some last := found
  simp [none] at same

/-- The summary is not in the last message. -/
theorem lastIndex_pos (summarised : conversation.summaryText.isSome)
    : 0 < conversation.lastIndex := by
  have several : 1 < conversation.messages.length := assembled_summary summarised
  rw [Conversation.lastIndex]
  omega

theorem lastIndex_not_mem_dropped
    : conversation.lastIndex ∉ conversation.dropped maxLen
      ↔ conversation.KeepsCurrent maxLen := by
  rw [mem_dropped]
  constructor
  · intro kept
    by_contra drops
    exact kept (Or.inl (last_removed drops assembled_summary messages_ne_nil
      fun index marked => markedIndex_lt marked))
  · rintro keeps (member | ⟨first, removed⟩)
    · exact last_not_removed keeps member
    · exact (lastIndex_pos removed.2.1).ne' first

/-- The limit is kept, or only the last and the marked message are left. -/
theorem dropped_fits (keeps : conversation.KeepsCurrent maxLen)
    : leftLen conversation.messages (conversation.dropped maxLen) ≤ maxLen
      ∨ ∀ index < conversation.messages.length, index ∉ conversation.dropped maxLen →
          index = conversation.lastIndex ∨ some index = conversation.markedIndex := by
  obtain ⟨removals, finished⟩ := history_spec conversation maxLen
  have last : conversation.lastIndex ∉ conversation.history maxLen := last_not_removed keeps
  have inside : conversation.lastIndex < conversation.messages.length := by
    have positive := List.length_pos_iff.mpr (messages_ne_nil : conversation.messages ≠ [])
    rw [Conversation.lastIndex]
    omega
  by_cases short : leftLen conversation.messages (conversation.history maxLen) ≤ maxLen
  · left
    rw [leftLen_congr fun index => ?_]
    · exact short
    · rw [mem_dropped]
      exact or_iff_left fun removed => not_lt.mpr short removed.2.1
  · right
    intro index bound kept
    by_contra other
    obtain ⟨different, unmarked⟩ := not_or.mp other
    have keptFirst : index ∉ conversation.history maxLen := fun member =>
      kept (mem_dropped.mpr (Or.inl member))
    have several := removals.two_left bound inside different keptFirst last
    rcases finished with fits | all | single
    · exact short fits
    · rcases not_not.mp (mt (all index bound) keptFirst) with marked | summary
      · exact unmarked marked
      · obtain ⟨summarised, rfl⟩ : conversation.summaryText.isSome ∧ 0 = index := by
          rw [summaryIndex] at summary
          split_ifs at summary with summarised
          exact ⟨summarised, (Option.some.inj summary).symm⟩
        exact kept (mem_dropped.mpr
          (Or.inr ⟨rfl, not_le.mp short, summarised, several, unmarked⟩))
    · omega

/-! ## The built window -/

theorem mem_keptMessages {messages : List Message} {removed : List Nat} {index : Nat}
    {message : Message} (found : messages[index]? = some message) (kept : index ∉ removed)
    : message ∈ keptMessages messages removed := by
  refine List.mem_map.mpr ⟨(message, index), List.mem_filter.mpr ⟨?_, by simpa using kept⟩, rfl⟩
  exact List.mem_zipIdx_iff_getElem?.mpr found

theorem getLast?_keptMessages {messages : List Message} {removed : List Nat} {last : Message}
    (found : messages.getLast? = some last) (kept : messages.length - 1 ∉ removed)
    : (keptMessages messages removed).getLast? = some last := by
  obtain ⟨before, rfl⟩ := List.getLast?_eq_some_iff.mp found
  rw [List.length_append, List.length_singleton, Nat.add_sub_cancel] at kept
  simp [keptMessages, List.zipIdx_append, List.filter_append, kept]

theorem window_of_kept (keeps : conversation.KeepsCurrent maxLen)
    : KeepsContext conversation maxLen (conversation.dropped maxLen)
        (mergeConsecutiveSameRole
          (keptMessages conversation.messages (conversation.dropped maxLen))) := by
  obtain ⟨removals, finished⟩ := history_spec conversation maxLen
  have kept := lastIndex_not_mem_dropped.mpr keeps
  obtain ⟨last, found, role, ends⟩ : ∃ last, conversation.messages.getLast? = some last
      ∧ last.role = "user" ∧ EndsWith last.content conversation.current :=
    getLast?_pushContextMessage _ _ _
  have lastKept := getLast?_keptMessages found kept
  obtain ⟨first, rest, shape⟩ : ∃ first rest,
      keptMessages conversation.messages (conversation.dropped maxLen) = first :: rest := by
    refine List.exists_cons_of_ne_nil fun none => ?_
    simp [none] at lastKept
  rw [shape, mergeConsecutiveSameRole]
  refine { kept, current := ?_, marked := ?_, order := ?_, needed := ?_, oldest := ?_,
           summary := ?_, fits := ?_ }
  · exact getLast?_mergeFrom ⟨last, shape ▸ lastKept, role, ends⟩
  · intro offset pointed inside
    obtain ⟨index, marked⟩ := markedIndex_isSome pointed inside
    obtain ⟨sameOffset, entry, same, listed, piece⟩ := markedIndex_eq marked
    obtain rfl : sameOffset = offset := Option.some.inj (same.symm.trans pointed)
    obtain ⟨message, place, contains⟩ := contains_of_mem_pieces piece
    have safe : index ∉ conversation.dropped maxLen := by
      rw [mem_dropped]
      rintro (member | ⟨rfl, removed⟩)
      · exact removals.unprotected index member (Or.inl marked.symm)
      · exact removed.2.2.2 marked.symm
    refine ⟨entry, listed, contains_mergeFrom ⟨message, ?_, contains⟩⟩
    exact shape ▸ mem_keptMessages place safe
  · rw [joinLines_mergeFrom, ← shape]
    exact joinLines_keptMessages _ _ _ _
  · intro index member free
    refine (removals.needed index (mem_history.mpr ⟨member, free⟩)).trans_eq
      (leftLen_congr fun other => ?_)
    simp only [removedBefore, List.mem_filter, mem_history, decide_eq_true_eq]
    tauto
  · intro index member free older below freeOlder
    exact (mem_history.mp (removals.oldest index (mem_history.mpr ⟨member, free⟩) older below
      freeOlder)).1
  · intro index member protects
    rcases mem_dropped.mp member with history | ⟨rfl, long, summarised, several, unmarked⟩
    · exact absurd protects (removals.unprotected index history)
    · refine ⟨unmarked, ?_, ?_⟩
      · intro other bound free
        rcases finished with fits | all | single
        · exact absurd long (not_lt.mpr fits)
        · exact (mem_history.mp (all other bound free)).1
        · exact absurd several (not_lt.mpr single)
      · refine long.trans_eq (leftLen_congr fun other => ?_)
        have same : other ∈ conversation.history maxLen ↔ _ := mem_history
        simp only [List.mem_filter, decide_not, Bool.not_eq_true', decide_eq_false_iff_not]
        exact same
  · refine (dropped_fits keeps).imp_left fun short => ?_
    refine (totalLen_mergeFrom first rest).trans ?_
    rwa [← shape, totalLen_keptMessages]

/-- For every conversation and limit, the built window keeps the context exactly when the current
message is in the message of the marked entry, when there is neither a summary nor a marked entry,
or when the summary, the marked and the current message fit the limit together.
-/
theorem buildContextMessages_keepsContext_iff
    (loadRecent : Nat → Option (List SessionMessage)) (importantOffset : Option Nat)
    (current : String) (recentMessagesLimit messagesMaxLen : Nat) (summaryText : Option String)
    (recentOverride : Option (List SessionMessage))
    : let conversation : Conversation :=
        { summaryText, recent := recentHistory loadRecent recentMessagesLimit recentOverride
          importantOffset, current }
      KeepsContext conversation messagesMaxLen (conversation.dropped messagesMaxLen)
          (buildContextMessages loadRecent importantOffset current recentMessagesLimit
            messagesMaxLen summaryText recentOverride)
        ↔ conversation.KeepsCurrent messagesMaxLen := by
  intro conversation
  have built : buildContextMessages loadRecent importantOffset current recentMessagesLimit
      messagesMaxLen summaryText recentOverride
      = mergeConsecutiveSameRole (keptMessages conversation.messages
          (conversation.dropped messagesMaxLen)) :=
    truncateMessagesToLen_eq _ _ _ _
  rw [built]
  constructor
  · intro keeps
    exact lastIndex_not_mem_dropped.mp keeps.kept
  · exact window_of_kept

theorem EndsWith.suffix {text last : String} (ends : EndsWith text last)
    : last.toList <:+ text.toList := by
  obtain ⟨before, rfl⟩ := ends
  exact ⟨before.toList, by rw [String.toList_append]⟩

/-- A summary and a current message that do not fit together: only the summary is left. -/
theorem buildContextMessages_drops_current
    : let window := buildContextMessages (fun _ => some []) none "the current question" 3 60
        (some "summary") none
      window = [⟨"user", "[CONTEXT_SUMMARY]\nsummary\n[/CONTEXT_SUMMARY]"⟩]
        ∧ ¬∃ last, window.getLast? = some last
            ∧ EndsWith last.content "the current question" := by
  intro window
  have only : window = [⟨"user", "[CONTEXT_SUMMARY]\nsummary\n[/CONTEXT_SUMMARY]"⟩] := by
    decide +kernel
  refine ⟨only, ?_⟩
  rintro ⟨last, found, ends⟩
  rw [only, List.getLast?_singleton, Option.some.injEq] at found
  subst found
  exact absurd ends.suffix (by decide +kernel)

end BeetleMemory.Context
