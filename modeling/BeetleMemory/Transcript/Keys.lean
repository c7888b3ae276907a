import BeetleMemory.LongTerm.Material
import BeetleMemory.Lib.Framing

/-! The keys of conversations, and the storage keys under which the query indexes of transcripts
are kept.
-/

namespace BeetleMemory.Transcript

open Store (Error textBytes textLen require)
open LongTerm (trim)

/-! ## Conversations -/

structure ConversationKey where
  memorySpaceId : String
  channelId : String
  conversationId : String
deriving DecidableEq, Repr

namespace ConversationKey

def validate (self : ConversationKey) : Except Error Unit := do
  require (!self.memorySpaceId.isEmpty)
    (.config "conversation_key" "memory_space_id must not be empty")
  require (!self.channelId.isEmpty) (.config "conversation_key" "channel_id must not be empty")
  require (!self.conversationId.isEmpty)
    (.config "conversation_key" "conversation_id must not be empty")

def new (memorySpaceId channelId conversationId : String) : Except Error ConversationKey := do
  let key : ConversationKey := ⟨trim memorySpaceId, trim channelId, trim conversationId⟩
  key.validate
  return key

end ConversationKey

def transcriptQueryStage : String := "conversation_transcript_query"

/-- The characters of the Unicode category of controls. -/
def isControl (c : Char) : Bool :=
  c.toNat ≤ 0x1F || (0x7F ≤ c.toNat && c.toNat ≤ 0x9F)

/-! ## Storage keys of the query indexes -/

variable (sha256 : List UInt8 → String)

def hashParts (domain : String) (parts : List String) : String :=
  "sha256:" ++ sha256 (Framing.frames ((domain :: parts).map textBytes))

def catalogPageKey (memorySpaceId mountedSubjectId : String) (channelId : Option String)
    (pageId : UInt64)
    : String :=
  hashParts sha256 "conversation_transcript_catalog_page_v1"
    [memorySpaceId, mountedSubjectId, channelId.getD "*", toString pageId.toNat]

def catalogRootKey (memorySpaceId mountedSubjectId : String) (channelId : Option String)
    : String :=
  hashParts sha256 "conversation_transcript_catalog_root_v1"
    [memorySpaceId, mountedSubjectId, channelId.getD "*"]

def timeRootKey (key : ConversationKey) (subject : String) (utcDay : UInt64) : String :=
  hashParts sha256 "conversation_transcript_time_root_v1"
    [key.memorySpaceId, subject, key.channelId, key.conversationId, toString utcDay.toNat]

def timePostingKey (key : ConversationKey) (subject : String) (utcDay pageId : UInt64) : String :=
  hashParts sha256 "conversation_transcript_time_posting_v1"
    [key.memorySpaceId, subject, key.channelId, key.conversationId, toString utcDay.toNat,
      toString pageId.toNat]

def termDigest (term : String) : String :=
  hashParts sha256 "conversation_transcript_search_term_v1" [term]

def searchRootKey (memorySpaceId mountedSubjectId termDigest : String) : String :=
  hashParts sha256 "conversation_transcript_search_root_v1"
    [memorySpaceId, mountedSubjectId, termDigest]

def searchPostingKey (memorySpaceId mountedSubjectId termDigest : String) (pageId : UInt64)
    : String :=
  hashParts sha256 "conversation_transcript_search_posting_v1"
    [memorySpaceId, mountedSubjectId, termDigest, toString pageId.toNat]

/-- The parts of a locator that name a message; its sequence and time are not part of the key. -/
structure TranscriptLocator where
  key : ConversationKey
  mountedSubjectId : String
  turnId : String
  messageId : Option String
deriving DecidableEq, Repr

def searchMessageManifestKey (locator : TranscriptLocator) : String :=
  hashParts sha256 "conversation_transcript_search_message_manifest_v1"
    [locator.key.memorySpaceId, locator.mountedSubjectId, locator.key.channelId,
      locator.key.conversationId, locator.turnId, locator.messageId.getD ""]

def keyringKey (memorySpaceId : String) : String :=
  hashParts sha256 "conversation_transcript_query_keyring_v1" [memorySpaceId]

/-- What the query indexes keep under a key of its own. -/
inductive IndexAddress where
  | catalogRoot (memorySpaceId mountedSubjectId : String) (channelId : Option String)
  | catalogPage (memorySpaceId mountedSubjectId : String) (channelId : Option String)
    (pageId : UInt64)
  | timeRoot (key : ConversationKey) (subject : String) (utcDay : UInt64)
  | timePosting (key : ConversationKey) (subject : String) (utcDay pageId : UInt64)
  | searchRoot (memorySpaceId mountedSubjectId term : String)
  | searchPosting (memorySpaceId mountedSubjectId term : String) (pageId : UInt64)
  | messageManifest (locator : TranscriptLocator)
  | keyring (memorySpaceId : String)
deriving DecidableEq, Repr

namespace IndexAddress

def storageKey : IndexAddress → String
  | catalogRoot space subject channel => catalogRootKey sha256 space subject channel
  | catalogPage space subject channel page => catalogPageKey sha256 space subject channel page
  | timeRoot key subject day => timeRootKey sha256 key subject day
  | timePosting key subject day page => timePostingKey sha256 key subject day page
  | searchRoot space subject term => searchRootKey sha256 space subject (termDigest sha256 term)
  | searchPosting space subject term page =>
      searchPostingKey sha256 space subject (termDigest sha256 term) page
  | messageManifest locator => searchMessageManifestKey sha256 locator
  | keyring space => keyringKey sha256 space

end IndexAddress

end BeetleMemory.Transcript
