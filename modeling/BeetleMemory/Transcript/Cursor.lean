import BeetleMemory.Transcript.Keys
import BeetleMemory.Lib.Hex

/-! Cursors of transcript queries: claims in JSON with an authentication code of them, both in
hexadecimal, and the keyring of a memory space that they are signed with. The digest, the
authentication code and the reader of JSON are parameters.
-/

namespace BeetleMemory.Transcript

open Store (Error Bytes textBytes textLen require startsWith dropStart)

/-- Addition of 64-bit numbers that stops at the greatest one. -/
def saturatingAdd (a b : Nat) : Nat :=
  min (a + b) (2 ^ 64 - 1)

/-- The value, or the error if there is none. -/
def okOrElse {α : Type} (value : Option α) (error : Error) : Except Error α :=
  match value with
  | some value => .ok value
  | none => .error error

def transcriptQueryIndexSchemaVersion : Nat := 1

def cursorStage : String := "conversation_transcript_query_cursor"

/-! ## The text of a cursor -/

def transcriptQueryCursorPrefix : String := "btq1:"

def maxTranscriptQueryCursorBytes : Nat := 4 * 1024

def isAsciiWhitespace (c : Char) : Bool :=
  [0x09, 0x0A, 0x0C, 0x0D, 0x20].contains c.toNat

def isAsciiControl (c : Char) : Bool :=
  c.toNat ≤ 0x1F || c.toNat == 0x7F

def cursorShape (encoded : String) : Bool :=
  !(maxTranscriptQueryCursorBytes < textLen encoded
    || textLen encoded ≤ textLen transcriptQueryCursorPrefix
    || !startsWith encoded transcriptQueryCursorPrefix
    || !encoded.toList.all (·.toNat < 128)
    || encoded.toList.any fun c => isAsciiWhitespace c || isAsciiControl c)

/-- A text that has the shape of a cursor. -/
structure TranscriptQueryCursor where
  encoded : String
  shaped : cursorShape encoded = true
deriving DecidableEq

def TranscriptQueryCursor.tryFromEncoded (encoded : String)
    : Except Error TranscriptQueryCursor :=
  if shaped : cursorShape encoded = true then .ok ⟨encoded, shaped⟩
  else .error (.config transcriptQueryStage "cursor_shape_invalid")

def hexEncode (bytes : Bytes) : String :=
  String.ofList (Hex.encode bytes)

def hexDecode (encoded : String) : Except Error Bytes :=
  okOrElse (Hex.decode encoded.toList) (.config cursorStage "cursor hex payload is invalid")

/-- The parts around the last separator. -/
def rsplitOnce (separator : Char) (text : String) : Option (String × String) :=
  let tail := text.toList.reverse.takeWhile (· ≠ separator)
  match text.toList.reverse.dropWhile (· ≠ separator) with
  | [] => none
  | _ :: front => some (String.ofList front.reverse, String.ofList tail.reverse)

/-! ## Claims and keys -/

structure TranscriptQueryCursorClaimsV1 where
  schemaVersion : Nat
  keyId : String
  kind : String
  direction : String
  queryDigest : String
  lifecycle : String
  viewContext : String
  limit : Nat
  memorySpaceId : String
  mountedSubjectId : String
  channelId : String
  conversationId : String
  headRevision : Nat
  headDigest : String
  snapshotUpperBound : Nat
  contentGeneration : Nat
  indexGeneration : Nat
  position : Nat
  incarnation : String
  issuedAt : Nat
  expiresAt : Nat
deriving DecidableEq, Repr

/-- The claims as the serializer writes them. -/
def TranscriptQueryCursorClaimsV1.toJson (claims : TranscriptQueryCursorClaimsV1)
    : JsonText.Json :=
  .object [("schema_version", .number claims.schemaVersion), ("key_id", .string claims.keyId),
    ("kind", .string claims.kind), ("direction", .string claims.direction),
    ("query_digest", .string claims.queryDigest), ("lifecycle", .string claims.lifecycle),
    ("view_context", .string claims.viewContext), ("limit", .number claims.limit),
    ("memory_space_id", .string claims.memorySpaceId),
    ("mounted_subject_id", .string claims.mountedSubjectId),
    ("channel_id", .string claims.channelId), ("conversation_id", .string claims.conversationId),
    ("head_revision", .number claims.headRevision), ("head_digest", .string claims.headDigest),
    ("snapshot_upper_bound", .number claims.snapshotUpperBound),
    ("content_generation", .number claims.contentGeneration),
    ("index_generation", .number claims.indexGeneration), ("position", .number claims.position),
    ("incarnation", .string claims.incarnation), ("issued_at", .number claims.issuedAt),
    ("expires_at", .number claims.expiresAt)]

def TranscriptQueryCursorClaimsV1.toVec (claims : TranscriptQueryCursorClaimsV1) : Bytes :=
  JsonText.toBytes .compact claims.toJson

structure TranscriptQuerySigningKeyV1 where
  keyId : String
  keyHex : String
  createdAt : Nat
  expiresAt : Nat
deriving DecidableEq, Repr

structure TranscriptQueryKeyringV1 where
  schemaVersion : Nat
  memorySpaceId : String
  incarnation : String
  current : TranscriptQuerySigningKeyV1
  previous : Option TranscriptQuerySigningKeyV1
deriving DecidableEq, Repr

def isLowerHex (c : Char) : Bool :=
  ('0' ≤ c && c ≤ '9') || ('a' ≤ c && c ≤ 'f')

def validSha256 (value : String) : Bool :=
  textLen value == 71 && startsWith value "sha256:" && (value.toList.drop 7).all isLowerHex

def validKey (key : TranscriptQuerySigningKeyV1) : Bool :=
  validSha256 key.keyId && textLen key.keyHex == 64 && key.keyHex.toList.all isLowerHex
    && 0 < key.createdAt && key.createdAt < key.expiresAt

def TranscriptQueryKeyringV1.validateForMemorySpace (self : TranscriptQueryKeyringV1)
    (memorySpaceId : String)
    : Except Error Unit :=
  require (!(self.schemaVersion != transcriptQueryIndexSchemaVersion
      || self.memorySpaceId != memorySpaceId || !validSha256 self.incarnation
      || !validKey self.current
      || self.previous.any fun previous =>
          !validKey previous || previous.keyId == self.current.keyId))
    (.config cursorStage "query keyring is invalid")

/-- The digest of a text in hexadecimal digits, the authentication code of a message under a key,
and the reader of claims with its error text.
-/
structure CursorCrypto where
  sha256 : String → String
  hmac : Bytes → Bytes → Bytes
  fromSlice : Bytes → Except String TranscriptQueryCursorClaimsV1

variable (crypto : CursorCrypto)

/-! ## Issuing and reading -/

def cursorMac (keyHex : String) (payload : Bytes) : Except Error Bytes := do
  let key ← hexDecode keyHex
  return crypto.hmac key
    (textBytes "beetle_memory_transcript_query_cursor_v1" ++ Framing.frame payload)

def encodeCursor (keyring : TranscriptQueryKeyringV1) (claims : TranscriptQueryCursorClaimsV1)
    : Except Error TranscriptQueryCursor := do
  require (!(claims.schemaVersion != transcriptQueryIndexSchemaVersion
      || claims.keyId != keyring.current.keyId || claims.incarnation != keyring.incarnation
      || claims.issuedAt == 0 || claims.expiresAt ≤ claims.issuedAt
      || keyring.current.expiresAt < claims.expiresAt))
    (.config cursorStage "cursor claims do not match the active signing authority")
  let payload := claims.toVec
  let tag ← cursorMac crypto keyring.current.keyHex payload
  TranscriptQueryCursor.tryFromEncoded ("btq1:" ++ hexEncode payload ++ "." ++ hexEncode tag)

/-- The key that claims are checked with: the current one, or else the previous one. -/
def signingKey (keyring : TranscriptQueryKeyringV1) (keyId : String)
    : Except Error TranscriptQuerySigningKeyV1 :=
  if keyId = keyring.current.keyId then .ok keyring.current
  else
    okOrElse (keyring.previous.filter (·.keyId == keyId))
      (.config cursorStage "cursor signing key is stale")

def decodeCursor (keyring : TranscriptQueryKeyringV1) (cursor : TranscriptQueryCursor) (now : Nat)
    : Except Error TranscriptQueryCursorClaimsV1 := do
  let encoded ← okOrElse (dropStart cursor.encoded "btq1:")
    (.config cursorStage "cursor prefix is invalid")
  let (payloadHex, suppliedTag) ← okOrElse (rsplitOnce '.' encoded)
    (.config cursorStage "cursor authentication tag is missing")
  let payload ← hexDecode payloadHex
  let claims ← (crypto.fromSlice payload).mapError (.config cursorStage)
  let key ← signingKey keyring claims.keyId
  require (!(claims.schemaVersion != transcriptQueryIndexSchemaVersion
      || claims.incarnation != keyring.incarnation || claims.issuedAt == 0
      || saturatingAdd now 300 < claims.issuedAt || claims.expiresAt < now
      || key.expiresAt < claims.expiresAt))
    (.config "conversation_transcript_query_cursor_stale"
      "cursor authority, incarnation, or expiry is stale")
  let suppliedTag ← hexDecode suppliedTag
  let tag ← cursorMac crypto key.keyHex payload
  require (suppliedTag == tag) (.config cursorStage "cursor authentication failed")
  return claims

/-! ## The keyring -/

/-- A key of 90 days from random bytes, and an incarnation of their digest. -/
def freshQueryKeyring (memorySpaceId : String) (now : Nat) (secret : Bytes)
    : TranscriptQueryKeyringV1 :=
  let digest := hexEncode secret
  { schemaVersion := transcriptQueryIndexSchemaVersion
    memorySpaceId := memorySpaceId
    incarnation := "sha256:" ++ crypto.sha256 ("incarnation:" ++ digest)
    current := {
      keyId := "sha256:" ++ crypto.sha256 ("key-id:" ++ digest)
      keyHex := digest
      createdAt := now
      expiresAt := saturatingAdd now 7776000 }
    previous := none }

/-- What is stored instead of the keyring, if anything: a keyring without its expired key, or one
with a new key when the current one has seven days or less.
-/
def planQueryKeyring (memorySpaceId : String) (before : Option TranscriptQueryKeyringV1)
    (now : Nat) (secret : Bytes)
    : Except Error (Option TranscriptQueryKeyringV1) :=
  match before with
  | none => .ok (some (freshQueryKeyring crypto memorySpaceId now secret))
  | some existing => do
      existing.validateForMemorySpace memorySpaceId
      if saturatingAdd now 604800 < existing.current.expiresAt then
        if existing.previous.any (·.expiresAt ≤ now) then
          return some { existing with previous := none }
        else return none
      else
        return some { freshQueryKeyring crypto memorySpaceId now secret with
          incarnation := existing.incarnation
          previous := (some existing.current).filter (now < ·.expiresAt) }

/-- The keyring that is stored after a check. A check that fails leaves it as it was. -/
def storedAfter (memorySpaceId : String) (before : Option TranscriptQueryKeyringV1) (now : Nat)
    (secret : Bytes)
    : Option TranscriptQueryKeyringV1 :=
  match planQueryKeyring crypto memorySpaceId before now secret with
  | .ok (some keyring) => some keyring
  | _ => before

/-- A check: the planned keyring is stored, and the stored one is loaded. -/
def ensureQueryKeyring (memorySpaceId : String) (before : Option TranscriptQueryKeyringV1)
    (now : Nat) (secret : Bytes)
    : Except Error TranscriptQueryKeyringV1 := do
  let _ ← planQueryKeyring crypto memorySpaceId before now secret
  match storedAfter crypto memorySpaceId before now secret with
  | none => .error (.config cursorStage "query keyring is missing")
  | some keyring =>
      keyring.validateForMemorySpace memorySpaceId
      return keyring

end BeetleMemory.Transcript
