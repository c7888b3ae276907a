import BeetleMemory.Transcript.Keys
import BeetleMemory.LongTerm.Texts
import BeetleMemory.Lib.Fallible

/-! A displayed citation is read back as the reference it came from exactly when no id has one of
the citation's own marks in it. Ids are free texts, and nothing marks them off in a citation.
-/

namespace BeetleMemory.Transcript

open LongTerm
open Store (isWhitespace dropStart startsWith)
open Fallible (bind_eq_ok pure_eq_ok)

/-! ## References -/

/-- A text that a key or an id may be: not empty, and nothing around it to trim. -/
def Canonical (text : String) : Prop :=
  text ≠ "" ∧ trim text = text

theorem Canonical.toList_ne_nil {text : String} (canonical : Canonical text) : text.toList ≠ [] :=
  fun empty => canonical.1 (String.toList_inj.mp empty)

/-- The keys that the constructor returns are those of canonical ids. -/
theorem ConversationKey.canonical_of_new {space channel conversation : String}
    {key : ConversationKey} (built : ConversationKey.new space channel conversation = .ok key)
    : Canonical key.memorySpaceId ∧ Canonical key.channelId ∧ Canonical key.conversationId := by
  have trimmed : ∀ text : String, (!(trim text).isEmpty) = true → Canonical (trim text) := by
    intro text some
    exact ⟨by simpa using some, trim_trim text⟩
  simp only [ConversationKey.new, ConversationKey.validate, bind_eq_ok, Store.require_eq_ok,
    pure_eq_ok, exists_const] at built
  obtain ⟨⟨spaceSome, channelSome, conversationSome⟩, rfl⟩ := built
  exact ⟨trimmed _ spaceSome, trimmed _ channelSome, trimmed _ conversationSome⟩

/-- A reference to a turn of a conversation, or to one of its messages. -/
def evidenceRef (key : ConversationKey) (turnId : String) (messageId subjectId : Option String)
    : TranscriptEvidenceRef where
  memorySpaceId := key.memorySpaceId
  channelId := key.channelId
  conversationId := key.conversationId
  turnId := turnId
  messageId := messageId
  subjectId := subjectId

/-- No id has a mark of the citation in it that would be found before the one put there. -/
structure Citable (ref : TranscriptEvidenceRef) : Prop where
  space_slash : '/' ∉ ref.memorySpaceId.toList
  channel_slash : '/' ∉ ref.channelId.toList
  turn_mark : ∀ id ∈ [ref.memorySpaceId, ref.channelId, ref.conversationId],
    ¬ "#turn=".toList <:+: id.toList
  message_mark : ¬ "#message=".toList <:+: ref.turnId.toList

/-! ## The text of a citation -/

/-- The part of a citation before the turn. -/
def citedPath (ref : TranscriptEvidenceRef) : List Char :=
  ref.memorySpaceId.toList ++ ('/' :: (ref.channelId.toList
    ++ ('/' :: ref.conversationId.toList)))

/-- The part of a citation that names the turn, and the message if there is one. -/
def citedTurn (ref : TranscriptEvidenceRef) : List Char :=
  ref.turnId.toList ++ ref.messageId.elim [] fun id => "#message=".toList ++ id.toList

theorem toList_displayCitation (ref : TranscriptEvidenceRef)
    : ref.displayCitation.toList
      = "transcript:".toList ++ (citedPath ref ++ ("#turn=".toList ++ citedTurn ref)) := by
  cases message : ref.messageId <;>
    simp [TranscriptEvidenceRef.displayCitation, citedPath, citedTurn, message]

/-- The ids of a reference are ones that a valid key and the turn's own ids may have. -/
structure Wellformed (ref : TranscriptEvidenceRef) : Prop where
  space : Canonical ref.memorySpaceId
  channel : Canonical ref.channelId
  conversation : Canonical ref.conversationId
  turn : Canonical ref.turnId
  message : ∀ id ∈ ref.messageId, Canonical id

variable {ref other : TranscriptEvidenceRef}

theorem getLast_citedTurn (formed : Wellformed ref)
    : citedTurn ref ≠ [] ∧ ∀ c ∈ (citedTurn ref).getLast?, isWhitespace c = false := by
  cases message : ref.messageId with
  | none =>
      simp only [citedTurn, message, Option.elim_none, List.append_nil]
      exact ⟨formed.turn.toList_ne_nil, getLast_trimmed formed.turn.2⟩
  | some id =>
      have canonical := formed.message id message
      simp only [citedTurn, message, Option.elim_some, ← List.append_assoc]
      refine ⟨List.append_ne_nil_of_right_ne_nil _ canonical.toList_ne_nil, ?_⟩
      rw [List.getLast?_append_of_ne_nil _ canonical.toList_ne_nil]
      exact getLast_trimmed canonical.2

/-- A citation begins with its mark and ends in an id, so there is nothing to trim. -/
theorem trim_displayCitation (formed : Wellformed ref)
    : trim ref.displayCitation = ref.displayCitation := by
  obtain ⟨some, last⟩ := getLast_citedTurn formed
  apply trim_eq_self
  · intro c first
    rw [toList_displayCitation] at first
    obtain rfl : 't' = c := by simpa using first
    decide
  · rw [toList_displayCitation, ← List.append_assoc, ← List.append_assoc,
      List.getLast?_append_of_ne_nil _ some]
    exact last

/-! ## Reading a citation -/

/-- The message named in the part of a citation after the turn mark. -/
def readTurn (turnPart : List Char) : List Char × Option String :=
  match splitOnce "#message=".toList turnPart with
  | some (turn, message) => (turn, some (trim (String.ofList message)))
  | none => (turnPart, none)

/-- What a citation is read as, part by part. -/
theorem parse_displayCitation (formed : Wellformed ref) {parsed : TranscriptEvidenceRef}
    : TranscriptEvidenceRef.parseDisplayCitation ref.displayCitation = some parsed
      ↔ ∃ path turnPart space rest channel conversation,
          splitOnce "#turn=".toList (citedPath ref ++ ("#turn=".toList ++ citedTurn ref))
              = some (path, turnPart)
          ∧ splitOnce ['/'] path = some (space, rest)
          ∧ splitOnce ['/'] rest = some (channel, conversation)
          ∧ (trim (String.ofList space) ≠ "" ∧ trim (String.ofList channel) ≠ ""
            ∧ trim (String.ofList conversation) ≠ ""
            ∧ trim (String.ofList (readTurn turnPart).1) ≠ "")
          ∧ parsed = ⟨trim (String.ofList space), trim (String.ofList channel),
              trim (String.ofList conversation), trim (String.ofList (readTurn turnPart).1),
              (readTurn turnPart).2.filter (!·.isEmpty), none⟩ := by
  have start : dropStart (trim ref.displayCitation) "transcript:"
      = some (String.ofList (citedPath ref ++ ("#turn=".toList ++ citedTurn ref))) := by
    rw [trim_displayCitation formed, dropStart, startsWith, toList_displayCitation]
    simp
  unfold TranscriptEvidenceRef.parseDisplayCitation
  rw [start]
  simp only [Option.bind_eq_bind, Option.bind_some, String.toList_ofList,
    Option.bind_eq_some_iff, Prod.exists]
  constructor
  · rintro ⟨path, turnPart, turns, space, rest, spaces, channel, conversation, channels, result⟩
    refine ⟨path, turnPart, space, rest, channel, conversation, turns, spaces, channels, ?_⟩
    unfold readTurn
    split at result <;> split_ifs at result with empty <;> simp_all
  · rintro ⟨path, turnPart, space, rest, channel, conversation, turns, spaces, channels, some, same⟩
    refine ⟨path, turnPart, turns, space, rest, spaces, channel, conversation, channels, ?_⟩
    unfold readTurn at some same
    split <;> split_ifs with empty <;> simp_all

theorem ofList_trimmed {text : String} (canonical : Canonical text)
    : trim (String.ofList text.toList) = text := by
  rw [String.ofList_toList, canonical.2]

/-- A part that is no longer than the id it is trimmed to is that id. -/
theorem eq_of_trim {part : List Char} {text : String} (same : text = trim (String.ofList part))
    (short : part.length ≤ text.toList.length)
    : part = text.toList := by
  have least := (trim_sublist (String.ofList part)).length_le
  rw [← same, String.toList_ofList] at least
  have whole : trim (String.ofList part) = String.ofList part :=
    trim_eq_of_length (by rw [← same, String.toList_ofList]; omega)
  rw [same, whole, String.toList_ofList]

theorem length_le_of_trim {part : List Char} {text : String}
    (same : text = trim (String.ofList part))
    : text.toList.length ≤ part.length := by
  rw [same]
  exact (trim_sublist (String.ofList part)).length_le.trans_eq (by rw [String.toList_ofList])

theorem slash_infix {text : List Char} : ['/'] <:+: text ↔ '/' ∈ text := by
  rw [List.singleton_infix_iff]

/-- The turn and the message are read back unless the turn has the message's mark in it. -/
theorem readTurn_citedTurn (formed : Wellformed ref)
    : (trim (String.ofList (readTurn (citedTurn ref)).1) = ref.turnId
        ∧ (readTurn (citedTurn ref)).2.filter (!·.isEmpty) = ref.messageId)
      ↔ ¬ "#message=".toList <:+: ref.turnId.toList := by
  constructor
  · rintro ⟨turn, -⟩ ⟨front, back, inside⟩
    -- the turn would be cut at the mark inside it
    have found : front ++ "#message=".toList <+: citedTurn ref := by
      refine List.IsPrefix.trans ⟨back, inside⟩ (List.prefix_append _ _)
    cases split : splitOnce "#message=".toList (citedTurn ref) with
    | none =>
        have absent := (splitOnce_eq_none (by decide)).mp split
        exact absent ((List.suffix_append front _).isInfix.trans found.isInfix)
    | some parts =>
        obtain ⟨before, after⟩ := parts
        have short := splitOnce_first split found
        have least := (trim_sublist (String.ofList before)).length_le
        simp only [readTurn, split] at turn
        have lengths := congrArg List.length inside
        rw [turn, String.toList_ofList] at least
        simp only [List.length_append] at lengths
        have mark : "#message=".toList.length = 9 := rfl
        omega
  · intro absent
    cases message : ref.messageId with
    | none =>
        have whole : citedTurn ref = ref.turnId.toList := by simp [citedTurn, message]
        have split := (splitOnce_eq_none (by decide)).mpr absent
        rw [whole, readTurn, split]
        exact ⟨ofList_trimmed formed.turn, rfl⟩
    | some id =>
        have canonical := formed.message id message
        have whole : citedTurn ref = ref.turnId.toList ++ ("#message=".toList ++ id.toList) := by
          simp [citedTurn, message]
        have split : splitOnce "#message=".toList (citedTurn ref)
            = some (ref.turnId.toList, id.toList) := by
          rw [whole]
          exact (splitOnce_append (by decide)).mpr absent
        simp only [readTurn, split, ofList_trimmed formed.turn, ofList_trimmed canonical]
        simp [canonical.1]

/-- A citation is read back as its reference exactly when the ids keep off its marks. -/
theorem parse_eq_iff (formed : Wellformed ref)
    : TranscriptEvidenceRef.parseDisplayCitation ref.displayCitation
        = some { ref with subjectId := none }
      ↔ Citable ref := by
  have marks : ¬ "#turn=".toList <:+: citedPath ref
      ↔ ∀ id ∈ [ref.memorySpaceId, ref.channelId, ref.conversationId],
          ¬ "#turn=".toList <:+: id.toList := by
    rw [citedPath, infix_append_mark (by decide), infix_append_mark (by decide)]
    simp
  rw [parse_displayCitation formed]
  constructor
  · rintro ⟨path, turnPart, space, rest, channel, conversation, turns, spaces, channels, -, same⟩
    simp only [TranscriptEvidenceRef.mk.injEq] at same
    obtain ⟨sameSpace, sameChannel, sameConversation, sameTurn, sameMessage, -⟩ := same
    -- the path is not longer than the one put there, and its parts are not shorter than the ids
    have whole : path ++ ("#turn=".toList ++ turnPart)
        = citedPath ref ++ ("#turn=".toList ++ citedTurn ref) :=
      (splitOnce_sound turns).symm
    have least : path.length ≤ (citedPath ref).length :=
      splitOnce_first turns ⟨citedTurn ref, by rw [List.append_assoc]⟩
    have pathParts := splitOnce_sound spaces
    have restParts := splitOnce_sound channels
    have spaceLength := length_le_of_trim sameSpace
    have channelLength := length_le_of_trim sameChannel
    have conversationLength := length_le_of_trim sameConversation
    have pathLength : path.length = space.length + (channel.length + conversation.length + 1) + 1 := by
      rw [pathParts, restParts]
      simp only [List.length_append, List.length_cons, List.length_nil]
      omega
    have citedLength : (citedPath ref).length = ref.memorySpaceId.toList.length
        + (ref.channelId.toList.length + ref.conversationId.toList.length + 1) + 1 := by
      simp only [citedPath, List.length_append, List.length_cons]
      omega
    obtain ⟨samePath, sameTurnMark⟩ := List.append_inj whole (by omega)
    obtain rfl : turnPart = citedTurn ref := List.append_cancel_left sameTurnMark
    obtain rfl := eq_of_trim sameSpace (by omega)
    obtain rfl := eq_of_trim sameChannel (by omega)
    refine ⟨?_, ?_, marks.mp ?_, (readTurn_citedTurn formed).mp ⟨sameTurn.symm, sameMessage.symm⟩⟩
    · rw [pathParts] at spaces
      exact mt slash_infix.mpr ((splitOnce_append (List.not_mem_nil)).mp spaces)
    · rw [restParts] at channels
      exact mt slash_infix.mpr ((splitOnce_append (List.not_mem_nil)).mp channels)
    · rw [samePath] at turns
      exact (splitOnce_append (by decide)).mp turns
  · intro citable
    obtain ⟨turn, message⟩ := (readTurn_citedTurn formed).mpr citable.message_mark
    refine ⟨citedPath ref, citedTurn ref, ref.memorySpaceId.toList,
      ref.channelId.toList ++ '/' :: ref.conversationId.toList, ref.channelId.toList,
      ref.conversationId.toList, ?_, ?_, ?_, ?_, ?_⟩
    · exact (splitOnce_append (by decide)).mpr (marks.mpr citable.turn_mark)
    · exact (splitOnce_append (List.not_mem_nil)).mpr (mt slash_infix.mp citable.space_slash)
    · exact (splitOnce_append (List.not_mem_nil)).mpr (mt slash_infix.mp citable.channel_slash)
    · rw [ofList_trimmed formed.space, ofList_trimmed formed.channel,
        ofList_trimmed formed.conversation, turn]
      exact ⟨formed.space.1, formed.channel.1, formed.conversation.1, formed.turn.1⟩
    · rw [ofList_trimmed formed.space, ofList_trimmed formed.channel,
        ofList_trimmed formed.conversation, turn, message]

theorem wellformed_evidenceRef {space channel conversation turnId : String}
    {messageId subjectId : Option String} {key : ConversationKey}
    (built : ConversationKey.new space channel conversation = .ok key) (turn : Canonical turnId)
    (message : ∀ id ∈ messageId, Canonical id)
    : Wellformed (evidenceRef key turnId messageId subjectId) := by
  obtain ⟨canonicalSpace, canonicalChannel, canonicalConversation⟩ :=
    ConversationKey.canonical_of_new built
  exact ⟨canonicalSpace, canonicalChannel, canonicalConversation, turn, message⟩

/-- The citation of a reference is read back as its ids exactly when they keep off the marks of a
citation, and two such references with different ids have different citations.
-/
theorem citation_identifies_source (space channel conversation turnId : String)
    (messageId subjectId : Option String) (key : ConversationKey)
    (built : ConversationKey.new space channel conversation = .ok key) (turn : Canonical turnId)
    (message : ∀ id ∈ messageId, Canonical id)
    : let ref := evidenceRef key turnId messageId subjectId
      (TranscriptEvidenceRef.parseDisplayCitation ref.displayCitation
          = some { ref with subjectId := none }
        ↔ Citable ref)
      ∧ ∀ other, Wellformed other → Citable ref → Citable other
        → ref.displayCitation = other.displayCitation
        → { ref with subjectId := none } = { other with subjectId := none } := by
  intro ref
  have formed : Wellformed ref := wellformed_evidenceRef built turn message
  refine ⟨parse_eq_iff formed, ?_⟩
  intro other otherFormed citable otherCitable same
  have read := (parse_eq_iff formed).mpr citable
  have otherRead := (parse_eq_iff otherFormed).mpr otherCitable
  rw [same] at read
  exact Option.some.inj (read.symm.trans otherRead)

/-- A slash in the memory space and a slash in the channel give the same citation, and it is read
as neither of the first reference's ids.
-/
theorem slashed_citation
    : ∃ key other, ConversationKey.new "a/b" "c" "v" = .ok key
        ∧ ConversationKey.new "a" "b/c" "v" = .ok other
        ∧ (evidenceRef key "t" (some "m") none).displayCitation
          = (evidenceRef other "t" (some "m") none).displayCitation
        ∧ TranscriptEvidenceRef.parseDisplayCitation
            (evidenceRef key "t" (some "m") none).displayCitation
          = some (evidenceRef ⟨"a", "b", "c/v"⟩ "t" (some "m") none) :=
  ⟨⟨"a/b", "c", "v"⟩, ⟨"a", "b/c", "v"⟩, by decide +kernel, by decide +kernel, by decide +kernel,
    by decide +kernel⟩

/-- Ids that keep off the marks; the conversation may have a slash in it. -/
theorem plain_citation
    : ConversationKey.new " space " "channel" "a/b" = .ok ⟨"space", "channel", "a/b"⟩
      ∧ TranscriptEvidenceRef.parseDisplayCitation
          (evidenceRef ⟨"space", "channel", "a/b"⟩ "t" (some "m#message=") (some "s")).displayCitation
        = some (evidenceRef ⟨"space", "channel", "a/b"⟩ "t" (some "m#message=") none) := by
  have built : ConversationKey.new " space " "channel" "a/b" = .ok ⟨"space", "channel", "a/b"⟩ := by
    decide +kernel
  have turn : Canonical "t" := by
    unfold Canonical
    decide +kernel
  have message : ∀ id ∈ some "m#message=", Canonical id := by
    unfold Canonical
    decide +kernel
  refine ⟨built, (citation_identifies_source " space " "channel" "a/b" "t" (some "m#message=")
    (some "s") _ built turn message).1.mpr ?_⟩
  constructor <;> decide +kernel

end BeetleMemory.Transcript
