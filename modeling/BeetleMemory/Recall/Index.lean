import BeetleMemory.LongTerm.Material
import BeetleMemory.Lib.Keyed
import BeetleMemory.Lib.Framing

/-! Indexes of the documents a recall may read: for each kind of index and each scope the addresses
of its documents, in order, with a digest over all of them. The head of a conversation is an index
without entries.
-/

namespace BeetleMemory.Recall

open Store (Error textBytes)
open LongTerm (trim)
open Keyed (sortBy)
open Framing (bigEndian frames)

def recallIndexSchemaVersion : UInt32 := 1

def requireComponent (value field : String) : Except Error Unit :=
  Store.require (!value.isEmpty && value == trim value)
    (.config "typed_recall_index" (field ++ " must be canonical and non-empty"))

def isSha256 (value : String) : Bool :=
  (Store.dropStart value "sha256:").any fun digest =>
    digest.toList.length == 64
      && digest.toList.all fun c =>
        ('0' ≤ c && c ≤ '9') || ('a' ≤ c && c ≤ 'f') || ('A' ≤ c && c ≤ 'F')

/-! ## Entries -/

inductive RecallIndexAddressKind where
  | json
  | blob
deriving DecidableEq, Repr

def RecallIndexAddressKind.asStr : RecallIndexAddressKind → String
  | .json => "json"
  | .blob => "blob"

def RecallIndexAddressKind.rank : RecallIndexAddressKind → Nat
  | .json => 0
  | .blob => 1

structure RecallIndexAddress where
  kind : RecallIndexAddressKind
  ns : String
  key : String
  revision : UInt64
  updatedAt : UInt64
  contentSha256 : String
deriving DecidableEq, Repr

/-- Addresses are ordered by kind, namespace and key. -/
abbrev Identity : Type := Lex (Nat × Lex (String × String))

def identityOf (kind : RecallIndexAddressKind) (ns key : String) : Identity :=
  toLex (kind.rank, toLex (ns, key))

namespace RecallIndexAddress

def identity (self : RecallIndexAddress) : Identity :=
  identityOf self.kind self.ns self.key

def validate (self : RecallIndexAddress) : Except Error Unit := do
  requireComponent self.ns "namespace"
  requireComponent self.key "key"
  Store.require (self.revision != 0 && isSha256 self.contentSha256)
    (.config "recall_index_address" "address revision or content digest is invalid")

/-- The JSON text of an entry. -/
def encode (self : RecallIndexAddress) : List UInt8 :=
  JsonText.toBytes .compact (.object
    [("kind", .string self.kind.asStr), ("namespace", .string self.ns), ("key", .string self.key),
      ("revision", .number self.revision.toNat), ("updated_at", .number self.updatedAt.toNat),
      ("content_sha256", .string self.contentSha256)])

end RecallIndexAddress

def replaceRecallIndexAddress (entries : List RecallIndexAddress) (next : RecallIndexAddress)
    : List RecallIndexAddress :=
  entries.filter (fun entry =>
    entry.kind != next.kind || entry.ns != next.ns || entry.key != next.key) ++ [next]

def removeRecallIndexAddress (entries : List RecallIndexAddress) (kind : RecallIndexAddressKind)
    (ns key : String)
    : List RecallIndexAddress :=
  entries.filter fun entry => entry.kind != kind || entry.ns != ns || entry.key != key

def canonicalEntries (entries : List RecallIndexAddress) (maxEntries : Nat)
    : Except Error (List RecallIndexAddress) := do
  entries.forM (·.validate)
  let sorted := sortBy (·.identity) entries
  Store.require (decide (sorted.map (·.identity)).Nodup && decide (sorted.length ≤ maxEntries))
    (.config "typed_recall_index" "entries are duplicate or exceed the hard scope ceiling")
  return sorted

/-! ## Keys and digests -/

section Digests

variable (sha256 : List UInt8 → String)

def recallIndexPhysicalKey (kind : String) (scope : List String) : Except Error String := do
  requireComponent kind "kind"
  scope.forM fun component => requireComponent component "scope"
  let digest := sha256 (frames (textBytes "beetle_recall_index_physical_key_v1"
    :: textBytes kind :: scope.map textBytes))
  return "ridx1:" ++ String.ofList (digest.toList.take 56)

/-- What the digest of an index covers, field by field. -/
def entriesDigestFields (kind : String) (schemaVersion : UInt32) (revision : UInt64)
    (scope : List String) (entries : List RecallIndexAddress)
    : List (List UInt8) :=
  [textBytes "beetle_recall_index_entries_digest_v1", textBytes kind,
      bigEndian 4 schemaVersion.toNat, bigEndian 8 revision.toNat]
    ++ scope.map textBytes ++ entries.map (·.encode)

def recallIndexEntriesDigest (kind : String) (schemaVersion : UInt32) (revision : UInt64)
    (scope : List String) (entries : List RecallIndexAddress)
    : String :=
  "sha256:" ++ sha256
    (frames (entriesDigestFields kind schemaVersion revision scope entries))

end Digests

/-! ## Typed indexes -/

inductive RecallIndexKind where
  | conversationTranscriptPage
  | conversationTranscriptAux
  | archiveRecall
  | continuityCapsuleScope
  | activeTaskRunByChat
  | taskLearningByChat
deriving DecidableEq, Repr

namespace RecallIndexKind

def name : RecallIndexKind → String
  | .conversationTranscriptPage => "conversation_transcript_page_v1"
  | .conversationTranscriptAux => "conversation_transcript_aux_manifest_v1"
  | .archiveRecall => "archive_recall_manifest_v1"
  | .continuityCapsuleScope => "continuity_capsule_scope_index_v1"
  | .activeTaskRunByChat => "active_task_run_by_chat_index_v1"
  | .taskLearningByChat => "task_learning_by_chat_index_v1"

def maxEntries : RecallIndexKind → Nat
  | .conversationTranscriptPage => 64
  | .conversationTranscriptAux => 128
  | .archiveRecall => 512
  | .continuityCapsuleScope => 16
  | .activeTaskRunByChat => 16
  | .taskLearningByChat => 64

/-- The names of the parts of a scope. -/
def fields : RecallIndexKind → List String
  | .conversationTranscriptPage =>
      ["memory_space_id", "mounted_subject_id", "channel_id", "conversation_id", "page_id"]
  | .conversationTranscriptAux =>
      ["memory_space_id", "mounted_subject_id", "channel_id", "conversation_id", "turn_id"]
  | .archiveRecall => ["memory_space_id", "mounted_subject_id"]
  | .continuityCapsuleScope => ["memory_space_id", "scope_kind", "scope_id"]
  | .activeTaskRunByChat => ["memory_space_id", "channel_id", "chat_id"]
  | .taskLearningByChat => ["memory_space_id", "channel_id", "chat_id"]

end RecallIndexKind

/-- One text for each field of the kind. -/
structure RecallScope (kind : RecallIndexKind) where
  parts : List String
  arity : parts.length = kind.fields.length
deriving DecidableEq, Repr

structure RecallIndex (kind : RecallIndexKind) where
  schemaVersion : UInt32
  physicalKey : String
  revision : UInt64
  scope : RecallScope kind
  entryCount : Nat
  entries : List RecallIndexAddress
  entriesDigest : String
deriving DecidableEq, Repr

/-- The loop over the entries: each is valid and comes after the one before. -/
def checkOrder (kind : String) : Option Identity → List RecallIndexAddress → Except Error Unit
  | _, [] => .ok ()
  | previous, entry :: rest => do
      entry.validate
      Store.require (previous.all fun previous => decide (previous < entry.identity))
        (.config "typed_recall_index" (kind ++ " entries are not unique canonical order"))
      checkOrder kind (some entry.identity) rest

section Indexes

variable {kind : RecallIndexKind} (sha256 : List UInt8 → String)

def RecallIndex.validate (self : RecallIndex kind) : Except Error Unit := do
  let failure :=
    Error.config "typed_recall_index" (kind.name ++ " schema, key, revision, or count is invalid")
  Store.require (self.schemaVersion == recallIndexSchemaVersion && self.revision != 0
      && self.entryCount == self.entries.length && decide (self.entryCount ≤ kind.maxEntries))
    failure
  let expected ← recallIndexPhysicalKey sha256 kind.name self.scope.parts
  Store.require (self.physicalKey == expected) failure
  checkOrder kind.name none self.entries
  Store.require (self.entriesDigest == recallIndexEntriesDigest sha256 kind.name
      self.schemaVersion self.revision self.scope.parts self.entries)
    (.config "typed_recall_index" (kind.name ++ " entries digest mismatch"))

def RecallIndex.build (revision : UInt64) (scope : RecallScope kind)
    (entries : List RecallIndexAddress)
    : Except Error (RecallIndex kind) := do
  (scope.parts.zip kind.fields).forM fun part => requireComponent part.1 part.2
  Store.require (revision != 0)
    (.config "typed_recall_index" "revision must be greater than zero")
  let entries ← canonicalEntries entries kind.maxEntries
  let physicalKey ← recallIndexPhysicalKey sha256 kind.name scope.parts
  let value : RecallIndex kind :=
    { schemaVersion := recallIndexSchemaVersion
      physicalKey, revision, scope
      entryCount := entries.length
      entries
      entriesDigest := recallIndexEntriesDigest sha256 kind.name recallIndexSchemaVersion
        revision scope.parts entries }
  value.validate sha256
  return value

end Indexes

/-! ## The head of a conversation -/

structure ConversationRecallManifest where
  schemaVersion : UInt32
  physicalKey : String
  revision : UInt64
  memorySpaceId : String
  mountedSubjectId : String
  channelId : String
  conversationId : String
  turnCount : UInt64
  lastSequence : UInt64
  pageCount : UInt64
  activePageId : UInt64
  activePageEntryCount : Nat
  headDigest : String
deriving DecidableEq, Repr

def conversationTranscriptPageSize : Nat := 64

/-- The number of pages, the last of them, and how many turns it holds. -/
def conversationPageShape (turnCount : UInt64) : Nat × Nat × Nat :=
  if turnCount = 0 then (0, 0, 0)
  else
    let turns := turnCount.toNat
    let pageCount :=
      min (turns + (conversationTranscriptPageSize - 1)) (2 ^ 64 - 1)
        / conversationTranscriptPageSize
    (pageCount, pageCount - 1, (turns - 1) % conversationTranscriptPageSize + 1)

namespace ConversationRecallManifest

def kindName : String := "conversation_recall_manifest_v1"

def scopeDigestParts (self : ConversationRecallManifest) : List String :=
  [self.memorySpaceId, self.mountedSubjectId, self.channelId, self.conversationId]

def headDigestFields (self : ConversationRecallManifest) : List (List UInt8) :=
  (["conversation_transcript_head_v2", toString recallIndexSchemaVersion.toNat,
      toString self.revision.toNat] ++ self.scopeDigestParts
    ++ [toString self.turnCount.toNat, toString self.lastSequence.toNat,
      toString self.pageCount.toNat, toString self.activePageId.toNat,
      toString self.activePageEntryCount]).map textBytes

variable (sha256 : List UInt8 → String)

def validate (self : ConversationRecallManifest) : Except Error Unit := do
  let shape := conversationPageShape self.turnCount
  let failure := Error.config "conversation_transcript_head"
    "head schema, scope, sequence, page shape, or digest is invalid"
  Store.require (self.schemaVersion == recallIndexSchemaVersion && self.revision != 0) failure
  let expected ← recallIndexPhysicalKey sha256 kindName self.scopeDigestParts
  Store.require (self.physicalKey == expected && self.lastSequence == self.turnCount
      && self.pageCount.toNat == shape.1 && self.activePageId.toNat == shape.2.1
      && self.activePageEntryCount == shape.2.2
      && self.headDigest == "sha256:" ++ sha256 (frames self.headDigestFields))
    failure

end ConversationRecallManifest

/-! ## Indexes of any kind -/

inductive AnyRecallIndex where
  | typed {kind : RecallIndexKind} (index : RecallIndex kind)
  | head (manifest : ConversationRecallManifest)

namespace AnyRecallIndex

def kindName : AnyRecallIndex → String
  | @typed kind _ => kind.name
  | .head _ => ConversationRecallManifest.kindName

def revision : AnyRecallIndex → UInt64
  | .typed index => index.revision
  | .head manifest => manifest.revision

def scopeDigestParts : AnyRecallIndex → List String
  | .typed index => index.scope.parts
  | .head manifest => manifest.scopeDigestParts

def entries : AnyRecallIndex → List RecallIndexAddress
  | .typed index => index.entries
  | .head _ => []

def entriesDigest : AnyRecallIndex → String
  | .typed index => index.entriesDigest
  | .head manifest => manifest.headDigest

variable (sha256 : List UInt8 → String)

def validate : AnyRecallIndex → Except Error Unit
  | .typed index => index.validate sha256
  | .head manifest => manifest.validate sha256

/-- What the digest of an index covers. -/
def digestFields : AnyRecallIndex → List (List UInt8)
  | @typed kind index =>
      entriesDigestFields kind.name index.schemaVersion index.revision index.scope.parts
        index.entries
  | .head manifest => manifest.headDigestFields

end AnyRecallIndex

end BeetleMemory.Recall
