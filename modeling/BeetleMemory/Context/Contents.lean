import BeetleMemory.Context.Shortening

/-! The contents of a message window. Each message holds the contents of neighbouring entries of
the conversation, one on each line, and shortening keeps the entries of the messages it keeps.
-/

namespace BeetleMemory.Context

/-! ## Joined texts -/

/-- Texts one after the other, each on a new line. -/
def joinLines : List String → String
  | [] => ""
  | [text] => text
  | text :: next :: rest => text ++ "\n" ++ joinLines (next :: rest)

theorem joinLines_cons {text : String} {rest : List String} (nonempty : rest ≠ [])
    : joinLines (text :: rest) = text ++ "\n" ++ joinLines rest := by
  cases rest with
  | nil => exact absurd rfl nonempty
  | cons next rest => rfl

theorem joinLines_append {first second : List String} (nonempty : first ≠ [])
    (nonemptySecond : second ≠ [])
    : joinLines (first ++ second) = joinLines first ++ "\n" ++ joinLines second := by
  induction first with
  | nil => exact absurd rfl nonempty
  | cons text rest ih =>
      cases rest with
      | nil => rw [List.singleton_append, joinLines_cons nonemptySecond]; rfl
      | cons next rest =>
          have later : next :: rest ≠ [] := by simp
          rw [List.cons_append, joinLines_cons (by simp), ih later, joinLines_cons later]
          simp only [String.append_assoc]

/-- Joining lines of joined lines. -/
theorem joinLines_flatten {parts : List (List String)} (nonempty : ∀ part ∈ parts, part ≠ [])
    : joinLines (parts.map joinLines) = joinLines parts.flatten := by
  induction parts with
  | nil => rfl
  | cons part rest ih =>
      have here := nonempty part (by simp)
      have later := ih fun other member => nonempty other (by simp [member])
      cases rest with
      | nil => simp [joinLines]
      | cons next rest =>
          have filled : (next :: rest).flatten ≠ [] := by
            have first := nonempty next (by simp)
            simp [first]
          have joined : joinLines (part ++ (next :: rest).flatten) = _ :=
            joinLines_append here filled
          rw [List.map_cons, joinLines_cons (by simp), later]
          exact joined.symm

/-! ## The parts of each message -/

/-- Each message holds its parts. -/
def Holds (messages : List Message) (parts : List (List String)) : Prop :=
  List.Forall₂ (fun message part => part ≠ [] ∧ joinLines part = message.content) messages parts

theorem Holds.part_ne_nil {messages : List Message} {parts : List (List String)}
    (holds : Holds messages parts)
    : ∀ part ∈ parts, part ≠ [] := by
  induction holds with
  | nil => simp
  | cons here _ ih =>
      intro part member
      rcases List.mem_cons.mp member with rfl | later
      · exact here.1
      · exact ih part later

theorem Holds.contents_eq {messages : List Message} {parts : List (List String)}
    (holds : Holds messages parts)
    : messages.map (·.content) = parts.map joinLines := by
  induction holds with
  | nil => rfl
  | cons here _ ih => rw [List.map_cons, List.map_cons, here.2, ih]

/-- The parts with the index of the message they are in. -/
def indexedParts (parts : List (List String)) : List (Nat × String) :=
  parts.zipIdx.flatMap fun part => part.1.map (part.2, ·)

theorem indexedParts_concat (parts : List (List String)) (part : List String)
    : indexedParts (parts ++ [part])
      = indexedParts parts ++ part.map (parts.length, ·) := by
  simp [indexedParts, List.zipIdx_append]

theorem pushContextMessage_index (messages : List Message) (role content : String)
    : (pushContextMessage messages role content).2
      = (pushContextMessage messages role content).1.length - 1 := by
  simp only [pushContextMessage]
  split
  · next last found =>
    have nonempty : messages ≠ [] := by
      rintro rfl
      simp at found
    have positive := List.length_pos_iff.mpr nonempty
    split_ifs <;> simp
  · simp

/-- Pushing a content adds it as the last part. -/
theorem Holds.push {messages : List Message} {parts : List (List String)}
    (holds : Holds messages parts) (role content : String)
    : ∃ more, Holds (pushContextMessage messages role content).1 more
      ∧ indexedParts more
        = indexedParts parts ++ [((pushContextMessage messages role content).2, content)] := by
  have length : messages.length = parts.length := holds.length_eq
  have appended : Holds (messages ++ [⟨role, content⟩]) (parts ++ [[content]]) :=
    List.rel_append holds (.cons ⟨by simp, rfl⟩ .nil)
  have indexed : indexedParts (parts ++ [[content]])
      = indexedParts parts ++ [(messages.length, content)] := by
    simp [indexedParts_concat, length]
  simp only [pushContextMessage]
  split
  · next last found =>
    obtain ⟨before, rfl⟩ := List.getLast?_eq_some_iff.mp found
    split_ifs with same
    · have ends := List.forall₂_reverse_iff.mpr holds
      rw [List.reverse_append, List.reverse_singleton, List.singleton_append] at ends
      generalize reversed : parts.reverse = turned at ends
      cases ends with
      | @cons _ part _ first here rest =>
          have split : parts = first.reverse ++ [part] := by
            rw [← List.reverse_reverse parts, reversed, List.reverse_cons]
          have before : Holds before first.reverse := by
            have turned := List.forall₂_reverse_iff.mpr rest
            rwa [List.reverse_reverse] at turned
          refine ⟨first.reverse ++ [part ++ [content]], ?_, ?_⟩
          · rw [List.dropLast_concat]
            refine List.rel_append before (.cons ⟨by simp, ?_⟩ .nil)
            rw [joinLines_append here.1 (by simp), here.2]
            rfl
          · have same := before.length_eq
            simp only [split, indexedParts_concat]
            simp [same]
    · exact ⟨_, appended, indexed⟩
  · exact ⟨_, appended, indexed⟩

theorem Holds.pushHistory {messages : List Message} {parts : List (List String)}
    (holds : Holds messages parts) (recent : List SessionMessage)
    : ∃ more, Holds (pushHistory messages recent).1 more
      ∧ indexedParts more = indexedParts parts
        ++ (Context.pushHistory messages recent).2.zip (recent.map (·.content)) := by
  induction recent generalizing messages parts with
  | nil => exact ⟨parts, holds, by simp [Context.pushHistory]⟩
  | cons entry rest ih =>
      obtain ⟨next, nextHolds, indexed⟩ := holds.push entry.role entry.content
      obtain ⟨more, moreHolds, same⟩ := ih nextHolds
      exact ⟨more, moreHolds, by simp [Context.pushHistory, same, indexed]⟩

/-- All contents of the conversation in order, with the index of their message. -/
def pieces (summaryText : Option String) (recent : List SessionMessage) (current : String)
    : List (Nat × String) :=
  summaryText.toList.map (fun summary => (0, buildContextSummaryMessage summary))
    ++ (assembled summaryText recent current).2.zip (recent.map (·.content))
    ++ [((assembled summaryText recent current).1.length - 1, current)]

theorem assembled_holds (summaryText : Option String) (recent : List SessionMessage)
    (current : String)
    : ∃ parts, Holds (assembled summaryText recent current).1 parts
      ∧ indexedParts parts = pieces summaryText recent current := by
  have summary : Holds (summaryText.toList.map fun summary =>
        Message.mk "user" (buildContextSummaryMessage summary))
      (summaryText.toList.map fun summary => [buildContextSummaryMessage summary]) := by
    cases summaryText with
    | none => exact .nil
    | some text => exact .cons ⟨by simp, rfl⟩ .nil
  obtain ⟨history, historyHolds, indexed⟩ := summary.pushHistory recent
  obtain ⟨parts, holds, same⟩ := historyHolds.push "user" current
  refine ⟨parts, holds, ?_⟩
  rw [same, indexed, pushContextMessage_index]
  cases summaryText <;> simp [pieces, assembled, indexedParts]

/-! ## Kept parts -/

theorem totalLen_keptMessages (messages : List Message) (removed : List Nat)
    : totalLen (keptMessages messages removed) = leftLen messages removed := by
  induction messages using List.reverseRecOn with
  | nil => rfl
  | append_singleton rest message ih =>
      have before : ∀ index ∈ Finset.range rest.length,
          (if index ∉ removed then lenAt (rest ++ [message]) index else 0)
            = if index ∉ removed then lenAt rest index else 0 := by
        intro index inside
        have bound := Finset.mem_range.mp inside
        simp [lenAt, List.getElem?_append_left bound]
      have last : lenAt (rest ++ [message]) rest.length = messageLen message := by
        simp [lenAt]
      rw [leftLen, Finset.sum_filter, List.length_append, List.length_singleton,
        Finset.sum_range_succ, Finset.sum_congr rfl before, ← Finset.sum_filter, last]
      rw [leftLen] at ih
      rw [← ih]
      by_cases gone : rest.length ∈ removed <;>
        simp [keptMessages, totalLen, List.zipIdx_append, List.filter_append, gone]

/-- Keeping by index keeps what relates to the kept messages. -/
theorem forall₂_kept {messages : List Message} {parts : List (List String)}
    (holds : Holds messages parts) (removed : List Nat) (start : Nat)
    : Holds (((messages.zipIdx start).filter (·.2 ∉ removed)).map (·.1))
        (((parts.zipIdx start).filter (·.2 ∉ removed)).map (·.1)) := by
  induction holds generalizing start with
  | nil => exact .nil
  | cons here _ ih =>
      simp only [List.zipIdx_cons, List.filter_cons]
      split_ifs
      · exact .cons here (ih (start + 1))
      · exact ih (start + 1)

theorem flatten_kept (parts : List (List String)) (removed : List Nat)
    : (((parts.zipIdx).filter (·.2 ∉ removed)).map (·.1)).flatten
      = ((indexedParts parts).filter (·.1 ∉ removed)).map (·.2) := by
  have general : ∀ start, (((parts.zipIdx start).filter (·.2 ∉ removed)).map (·.1)).flatten
      = (((parts.zipIdx start).flatMap fun part => part.1.map (part.2, ·)).filter
          (·.1 ∉ removed)).map (·.2) := by
    induction parts with
    | nil => simp
    | cons part rest ih =>
        intro start
        rw [List.zipIdx_cons, List.flatMap_cons, List.filter_append, List.map_append,
          ← ih (start + 1)]
        by_cases gone : start ∈ removed
        · simp [List.filter_map, Function.comp_def, gone]
        · simp [List.filter_map, Function.comp_def, gone]
  exact general 0

/-- The kept messages hold the kept pieces in order. -/
theorem joinLines_keptMessages (summaryText : Option String) (recent : List SessionMessage)
    (current : String) (removed : List Nat)
    : joinLines ((keptMessages (assembled summaryText recent current).1 removed).map (·.content))
      = joinLines (((pieces summaryText recent current).filter (·.1 ∉ removed)).map (·.2)) := by
  obtain ⟨parts, holds, indexed⟩ := assembled_holds summaryText recent current
  have kept := forall₂_kept holds removed 0
  rw [← indexed, ← flatten_kept, ← joinLines_flatten kept.part_ne_nil, ← kept.contents_eq]
  rfl

/-! ## Texts in a message -/

def Contains (text part : String) : Prop :=
  ∃ before after, text = before ++ part ++ after

def EndsWith (text last : String) : Prop :=
  ∃ before, text = before ++ last

theorem Contains.refl (text : String) : Contains text text :=
  ⟨"", "", by simp⟩

theorem Contains.join_left {message : Message} {part : String}
    (contains : Contains message.content part) (content : String)
    : Contains (message.join content).content part := by
  obtain ⟨before, after, same⟩ := contains
  exact ⟨before, after ++ "\n" ++ content, by simp [Message.join, same, String.append_assoc]⟩

theorem Contains.join_right {content part : String} (contains : Contains content part)
    (message : Message)
    : Contains (message.join content).content part := by
  obtain ⟨before, after, rfl⟩ := contains
  exact ⟨message.content ++ "\n" ++ before, after, by simp [Message.join, String.append_assoc]⟩

theorem contains_joinLines {parts : List String} {part : String} (member : part ∈ parts)
    : Contains (joinLines parts) part := by
  induction parts with
  | nil => simp at member
  | cons text rest ih =>
      cases rest with
      | nil =>
          rw [List.mem_singleton.mp member]
          exact .refl text
      | cons next rest =>
          rw [joinLines_cons (by simp)]
          rcases List.mem_cons.mp member with rfl | later
          · have first : Contains (⟨"", part⟩ : Message).content part := .refl part
            exact first.join_left _
          · exact (ih later).join_right ⟨"", text⟩

/-! ## Merging -/

theorem mergeFrom_ne_nil (message : Message) (rest : List Message) : mergeFrom message rest ≠ [] := by
  induction rest generalizing message with
  | nil => simp [mergeFrom]
  | cons next rest ih =>
      rw [mergeFrom]
      split_ifs
      · exact ih _
      · simp

/-- Merging keeps all texts in order. -/
theorem joinLines_mergeFrom (message : Message) (rest : List Message)
    : joinLines ((mergeFrom message rest).map (·.content))
      = joinLines ((message :: rest).map (·.content)) := by
  induction rest generalizing message with
  | nil => rfl
  | cons next rest ih =>
      rw [mergeFrom]
      split_ifs
      · rw [ih]
        cases rest with
        | nil => rfl
        | cons other rest =>
            simp only [List.map_cons, joinLines, Message.join, String.append_assoc]
      · rw [List.map_cons, joinLines_cons (by simp [mergeFrom_ne_nil]), ih]
        rfl

theorem totalLen_mergeFrom (message : Message) (rest : List Message)
    : totalLen (mergeFrom message rest) ≤ totalLen (message :: rest) := by
  induction rest generalizing message with
  | nil => rfl
  | cons next rest ih =>
      rw [mergeFrom]
      split_ifs
      · refine (ih _).trans ?_
        have newline : "\n".utf8ByteSize = 1 := by decide
        simp only [totalLen, List.map_cons, List.sum_cons, messageLen, Message.join,
          String.utf8ByteSize_append, newline]
        omega
      · have later := ih next
        simp only [totalLen, List.map_cons, List.sum_cons] at later ⊢
        omega

/-- What some message contains, some merged message contains. -/
theorem contains_mergeFrom {message : Message} {rest : List Message} {part : String}
    (held : ∃ other ∈ message :: rest, Contains other.content part)
    : ∃ merged ∈ mergeFrom message rest, Contains merged.content part := by
  induction rest generalizing message with
  | nil => simpa [mergeFrom] using held
  | cons next rest ih =>
      obtain ⟨other, member, contains⟩ := held
      rw [mergeFrom]
      split_ifs
      · apply ih
        rcases List.mem_cons.mp member with rfl | later
        · exact ⟨_, by simp, contains.join_left next.content⟩
        · rcases List.mem_cons.mp later with rfl | later
          · exact ⟨_, by simp, contains.join_right message⟩
          · exact ⟨other, by simp [later], contains⟩
      · rcases List.mem_cons.mp member with rfl | later
        · exact ⟨other, by simp, contains⟩
        · obtain ⟨merged, within, holds⟩ := ih ⟨other, later, contains⟩
          exact ⟨merged, by simp [within], holds⟩

/-- The last merged message ends with the last message. -/
theorem getLast?_mergeFrom {message : Message} {rest : List Message} {role text : String}
    (held : ∃ last, (message :: rest).getLast? = some last ∧ last.role = role
      ∧ EndsWith last.content text)
    : ∃ last, (mergeFrom message rest).getLast? = some last ∧ last.role = role
      ∧ EndsWith last.content text := by
  induction rest generalizing message with
  | nil => exact held
  | cons next rest ih =>
      rw [List.getLast?_cons_cons] at held
      rw [mergeFrom]
      split_ifs with joined
      · apply ih
        obtain ⟨last, found, sameRole, before, same⟩ := held
        cases rest with
        | nil =>
            rw [List.getLast?_singleton, Option.some.injEq] at found
            subst found
            refine ⟨_, rfl, joined.1.trans sameRole, message.content ++ "\n" ++ before, ?_⟩
            simp [Message.join, same, String.append_assoc]
        | cons other rest =>
            rw [List.getLast?_cons_cons] at found ⊢
            exact ⟨last, found, sameRole, before, same⟩
      · have later := ih held
        obtain ⟨first, more, shape⟩ := List.exists_cons_of_ne_nil (mergeFrom_ne_nil next rest)
        rw [shape] at later ⊢
        rwa [List.getLast?_cons_cons]

/-! ## The assembled messages -/

theorem getLast?_pushContextMessage (messages : List Message) (role content : String)
    : ∃ last, (pushContextMessage messages role content).1.getLast? = some last
      ∧ last.role = role ∧ EndsWith last.content content := by
  simp only [pushContextMessage]
  split
  · next last found =>
    split_ifs with same
    · exact ⟨_, List.getLast?_concat, same.1, last.content ++ "\n", rfl⟩
    · exact ⟨_, List.getLast?_concat, rfl, "", by simp⟩
  · exact ⟨_, List.getLast?_concat, rfl, "", by simp⟩

/-- Nothing is joined to a summary at the head. -/
theorem pushContextMessage_summary {summary : Message} (marked : hasSummaryMarker summary)
    (rest : List Message) (role content : String)
    : ∃ more, more ≠ []
      ∧ (pushContextMessage (summary :: rest) role content).1 = summary :: more := by
  cases rest with
  | nil => exact ⟨[⟨role, content⟩], by simp, by simp [pushContextMessage, marked]⟩
  | cons next rest =>
      simp only [pushContextMessage]
      split
      · split_ifs
        · exact ⟨(next :: rest).dropLast ++ [_], by simp,
            by rw [List.dropLast_cons_cons, List.cons_append]⟩
        · exact ⟨next :: rest ++ [_], by simp, List.cons_append⟩
      · exact ⟨next :: rest ++ [_], by simp, List.cons_append⟩

theorem pushHistory_summary {summary : Message} (marked : hasSummaryMarker summary)
    (rest : List Message) (recent : List SessionMessage)
    : ∃ more, (pushHistory (summary :: rest) recent).1 = summary :: more := by
  induction recent generalizing rest with
  | nil => exact ⟨rest, rfl⟩
  | cons entry later ih =>
      obtain ⟨next, -, same⟩ := pushContextMessage_summary marked rest entry.role entry.content
      obtain ⟨more, result⟩ := ih next
      exact ⟨more, by simp [pushHistory, same, result]⟩

theorem startsWith_append (start rest : String)
    : Store.startsWith (start ++ rest) start = true := by
  rw [Store.startsWith, String.toList_append]
  exact List.isPrefixOf_iff_prefix.mpr (List.prefix_append _ _)

theorem buildContextSummaryMessage_eq (summary : String)
    : ∃ rest, buildContextSummaryMessage summary = "[CONTEXT_SUMMARY]" ++ rest := by
  have split : "[CONTEXT_SUMMARY]\n" = "[CONTEXT_SUMMARY]" ++ "\n" := by decide
  have whole := congrArg (· ++ LongTerm.trim summary ++ "\n[/CONTEXT_SUMMARY]") split
  exact ⟨_, whole.trans ((String.append_assoc ..).trans (String.append_assoc ..))⟩

theorem hasSummaryMarker_summary (role summary : String)
    : hasSummaryMarker ⟨role, buildContextSummaryMessage summary⟩ = true := by
  obtain ⟨rest, same⟩ := buildContextSummaryMessage_eq summary
  rw [same]
  exact startsWith_append _ _

theorem pushHistory_length (messages : List Message) (recent : List SessionMessage)
    : (pushHistory messages recent).2.length = recent.length := by
  induction recent generalizing messages with
  | nil => rfl
  | cons entry rest ih => simp [pushHistory, ih]

variable {summaryText : Option String} {recent : List SessionMessage} {current : String}

theorem assembled_summary (summarised : summaryText.isSome)
    : 1 < (assembled summaryText recent current).1.length := by
  obtain ⟨summary, rfl⟩ := Option.isSome_iff_exists.mp summarised
  have marked := hasSummaryMarker_summary "user" summary
  obtain ⟨rest, history⟩ := pushHistory_summary marked [] recent
  obtain ⟨more, nonempty, pushed⟩ := pushContextMessage_summary marked rest "user" current
  have positive := List.length_pos_iff.mpr nonempty
  have whole : (assembled (some summary) recent current).1
      = ⟨"user", buildContextSummaryMessage summary⟩ :: more := by
    rw [← pushed, ← history]
    rfl
  rw [whole, List.length_cons]
  omega

/-- A piece is in the message at its index. -/
theorem contains_of_mem_pieces {index : Nat} {text : String}
    (member : (index, text) ∈ pieces summaryText recent current)
    : ∃ message, (assembled summaryText recent current).1[index]? = some message
      ∧ Contains message.content text := by
  obtain ⟨parts, holds, indexed⟩ := assembled_holds summaryText recent current
  rw [← indexed] at member
  obtain ⟨⟨part, position⟩, inside, within⟩ := List.mem_flatMap.mp member
  obtain ⟨other, found, same⟩ := List.mem_map.mp within
  obtain ⟨rfl, rfl⟩ := Prod.mk.inj same
  have place := List.mem_zipIdx_iff_getElem?.mp inside
  have contents := congrArg (·[position]?) holds.contents_eq
  simp only [List.getElem?_map, place, Option.map_some] at contents
  obtain ⟨message, exists_, content⟩ := Option.map_eq_some_iff.mp contents
  exact ⟨message, exists_, content ▸ contains_joinLines found⟩

end BeetleMemory.Context
