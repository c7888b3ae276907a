import BeetleMemory.LongTerm.Material

/-! The message window of a conversation: a summary, the recent history and the current message,
shortened to a length limit. Lengths are sums of byte lengths of texts held in memory, so the
saturating additions of the source never saturate.
-/

namespace BeetleMemory.Context

open LongTerm (trim)
open Store (startsWith)

structure Message where
  role : String
  content : String
deriving DecidableEq, Repr

structure SessionMessage where
  role : String
  content : String
deriving DecidableEq, Repr

def buildContextSummaryMessage (summary : String) : String :=
  "[CONTEXT_SUMMARY]\n" ++ trim summary ++ "\n[/CONTEXT_SUMMARY]"

/-- The message is a summary, to which nothing is joined. -/
def hasSummaryMarker (message : Message) : Bool :=
  startsWith message.content "[CONTEXT_SUMMARY]"

/-- Two contents in one message. -/
def Message.join (message : Message) (content : String) : Message :=
  { message with content := message.content ++ "\n" ++ content }

/-- A message goes into the last one if that has the same role. The index of the message it is
in is returned with the messages.
-/
def pushContextMessage (messages : List Message) (role content : String)
    : List Message × Nat :=
  match messages.getLast? with
  | some last =>
      if last.role = role ∧ ¬hasSummaryMarker last then
        (messages.dropLast ++ [last.join content], messages.length - 1)
      else (messages ++ [⟨role, content⟩], messages.length)
  | none => (messages ++ [⟨role, content⟩], messages.length)

/-- The length a message counts for. -/
def messageLen (message : Message) : Nat :=
  message.role.utf8ByteSize + message.content.utf8ByteSize + 2

def totalLen (messages : List Message) : Nat :=
  (messages.map messageLen).sum

/-- The loop over the messages, oldest first. It stops when the rest is short enough or would
be a single message.
-/
def firstPass (count maxLen : Nat) (protectedIdx summaryIdx : Option Nat)
    : Nat → Nat → List Nat → List Message → Nat × List Nat
  | _, total, indicesToRemove, [] => (total, indicesToRemove)
  | index, total, indicesToRemove, message :: rest =>
      if total ≤ maxLen then (total, indicesToRemove)
      else if some index = protectedIdx ∨ some index = summaryIdx then
        firstPass count maxLen protectedIdx summaryIdx (index + 1) total indicesToRemove rest
      else if count - indicesToRemove.length ≤ 1 then (total, indicesToRemove)
      else
        firstPass count maxLen protectedIdx summaryIdx (index + 1) (total - messageLen message)
          (indicesToRemove ++ [index]) rest

def indicesToRemove (messages : List Message) (maxLen : Nat) (protectedIdx : Option Nat)
    (preserveSummary : Bool)
    : List Nat :=
  let summaryIdx := if preserveSummary then some 0 else none
  let (total, removed) := firstPass messages.length maxLen protectedIdx summaryIdx 0
    (totalLen messages) [] messages
  let removed :=
    if maxLen < total ∧ summaryIdx.isSome ∧ 1 < messages.length - removed.length
        ∧ some 0 ≠ protectedIdx then
      removed ++ [0]
    else removed
  removed.insertionSort (· ≤ ·)

/-- The messages whose index is not next in the sorted indices. -/
def keepUnlisted : Nat → List Nat → List Message → List Message
  | _, _, [] => []
  | index, [], message :: rest => message :: keepUnlisted (index + 1) [] rest
  | index, next :: later, message :: rest =>
      if next = index then keepUnlisted (index + 1) later rest
      else message :: keepUnlisted (index + 1) (next :: later) rest

/-- The current message with those after it that can be joined to it, then the rest. -/
def mergeFrom (message : Message) : List Message → List Message
  | [] => [message]
  | next :: rest =>
      if message.role = next.role ∧ ¬(hasSummaryMarker message ∨ hasSummaryMarker next) then
        mergeFrom (message.join next.content) rest
      else message :: mergeFrom next rest

def mergeConsecutiveSameRole : List Message → List Message
  | [] => []
  | message :: rest => mergeFrom message rest

def truncateMessagesToLen (messages : List Message) (maxLen : Nat) (protectedIdx : Option Nat)
    (preserveSummary : Bool)
    : List Message :=
  mergeConsecutiveSameRole
    (keepUnlisted 0 (indicesToRemove messages maxLen protectedIdx preserveSummary) messages)

/-- The history after the messages so far, with the index of the message each entry is in. -/
def pushHistory : List Message → List SessionMessage → List Message × List Nat
  | messages, [] => (messages, [])
  | messages, entry :: rest =>
      let (messages, index) := pushContextMessage messages entry.role entry.content
      let (messages, indices) := pushHistory messages rest
      (messages, index :: indices)

/-- All messages before they are shortened, and the indices of the history entries. -/
def assembled (summaryText : Option String) (recent : List SessionMessage) (current : String)
    : List Message × List Nat :=
  let summary := summaryText.toList.map fun summary =>
    Message.mk "user" (buildContextSummaryMessage summary)
  let (messages, sessionMessageIndices) := pushHistory summary recent
  ((pushContextMessage messages "user" current).1, sessionMessageIndices)

/-- The index of the message that holds the marked entry, counted from the end. -/
def protectedIndex (sessionMessageIndices : List Nat) (importantOffset : Option Nat)
    : Option Nat :=
  importantOffset.bind fun offset =>
    if sessionMessageIndices.length ≤ offset then none
    else sessionMessageIndices[sessionMessageIndices.length - (1 + offset)]?

/-- The recent history: what is given, or what the session has. -/
def recentHistory (loadRecent : Nat → Option (List SessionMessage)) (recentMessagesLimit : Nat)
    (recentOverride : Option (List SessionMessage))
    : List SessionMessage :=
  recentOverride.getD ((loadRecent (max 1 (min recentMessagesLimit 128))).getD [])

def buildContextMessages (loadRecent : Nat → Option (List SessionMessage))
    (importantOffset : Option Nat) (current : String) (recentMessagesLimit messagesMaxLen : Nat)
    (summaryText : Option String) (recentOverride : Option (List SessionMessage))
    : List Message :=
  let recent := recentHistory loadRecent recentMessagesLimit recentOverride
  let (messages, sessionMessageIndices) := assembled summaryText recent current
  truncateMessagesToLen messages messagesMaxLen
    (protectedIndex sessionMessageIndices importantOffset) summaryText.isSome

end BeetleMemory.Context
