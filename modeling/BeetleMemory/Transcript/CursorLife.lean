import BeetleMemory.Transcript.Cursor
import BeetleMemory.LongTerm.Texts
import BeetleMemory.Lib.Fallible
import BeetleMemory.Lib.Digests

/-! How long a cursor can be read. A key is kept until it expires, since the key after it has a far
longer time left than the one before; the check that runs in the very second in which a key expires
drops it, while a cursor of the same expiry still counts as live in that second.
-/

namespace BeetleMemory.Transcript

open Fallible (bind_eq_ok pure_eq_ok ok_bind error_bind)
open Store (Error Bytes textBytes textLen require require_eq_ok require_bind dropStart startsWith)
open LongTerm (textLen_of_ascii dropStart_append dropStart_eq_some)

variable {crypto : CursorCrypto} {memorySpaceId : String}

/-! ## The text of a cursor -/

@[simp]
theorem okOrElse_some {α : Type} (value : α) (error : Error)
    : okOrElse (some value) error = .ok value :=
  rfl

@[simp]
theorem okOrElse_eq_ok {α : Type} {found : Option α} {error : Error} {value : α}
    : okOrElse found error = .ok value ↔ found = some value := by
  cases found <;> simp [okOrElse]

theorem mapError_eq_ok {α ε δ : Type} {result : Except ε α} {change : ε → δ} {value : α}
    : result.mapError change = .ok value ↔ result = .ok value := by
  cases result <;> simp [Except.mapError]

/-- The last dot is the one in front of a text without dots. -/
theorem rsplitOnce_append (front : String) {back : String} (plain : '.' ∉ back.toList)
    : rsplitOnce '.' (front ++ "." ++ back) = some (front, back) := by
  have other : ∀ c ∈ back.toList.reverse, decide (c ≠ '.') = true := by
    intro c inside
    rw [List.mem_reverse] at inside
    simpa using fun same : c = '.' => plain (same ▸ inside)
  simp only [rsplitOnce, String.toList_append, List.reverse_append]
  rw [List.takeWhile_append_of_pos other, List.dropWhile_append_of_pos other]
  simp

theorem hexDecode_hexEncode (bytes : Bytes) : hexDecode (hexEncode bytes) = .ok bytes := by
  simp [hexDecode, hexEncode, Hex.decode_encode]

theorem dot_notMem_hexEncode (bytes : Bytes) : '.' ∉ (hexEncode bytes).toList := by
  intro member
  rw [hexEncode, String.toList_ofList] at member
  exact absurd (Hex.mem_encode member) (by decide)

theorem toNat_of_isLowerHex {c : Char} (hex : isLowerHex c = true) : c.toNat < 128 := by
  simp only [isLowerHex, Bool.or_eq_true, Bool.and_eq_true, decide_eq_true_eq, Char.le_def,
    UInt32.le_iff_toNat_le] at hex
  simp at hex
  omega

theorem hexEncode_isLowerHex (bytes : Bytes) : (hexEncode bytes).toList.all isLowerHex = true := by
  have digits : "0123456789abcdef".toList.all isLowerHex = true := by decide
  rw [hexEncode, String.toList_ofList, List.all_eq_true]
  exact fun c member => List.all_eq_true.mp digits c (Hex.mem_encode member)

theorem length_hexEncode (bytes : Bytes) : (hexEncode bytes).length = 2 * bytes.length := by
  rw [← String.length_toList, hexEncode, String.toList_ofList, Hex.length_encode]

/-- The bytes of claims that depend on their values. -/
def TranscriptQueryCursorClaimsV1.valueCount (claims : TranscriptQueryCursorClaimsV1) : Nat :=
  ([claims.keyId, claims.kind, claims.direction, claims.queryDigest, claims.lifecycle,
    claims.viewContext, claims.memorySpaceId, claims.mountedSubjectId, claims.channelId,
    claims.conversationId, claims.headDigest, claims.incarnation].map JsonText.escapedCount).sum
  + ([claims.schemaVersion, claims.limit, claims.headRevision, claims.snapshotUpperBound,
      claims.contentGeneration, claims.indexGeneration, claims.position, claims.issuedAt,
      claims.expiresAt].map JsonText.digitCount).sum

theorem length_toVec (claims : TranscriptQueryCursorClaimsV1)
    : claims.toVec.length = 354 + claims.valueCount := by
  rw [TranscriptQueryCursorClaimsV1.toVec, TranscriptQueryCursorClaimsV1.toJson,
    JsonText.length_toBytes_object (by simp), TranscriptQueryCursorClaimsV1.valueCount]
  have names : (["schema_version", "key_id", "kind", "direction", "query_digest", "lifecycle",
      "view_context", "limit", "memory_space_id", "mounted_subject_id", "channel_id",
      "conversation_id", "head_revision", "head_digest", "snapshot_upper_bound",
      "content_generation", "index_generation", "position", "incarnation", "issued_at",
      "expires_at"].map JsonText.escapedCount).sum = 245 := by decide
  simp only [List.map_cons, List.map_nil] at names
  simp only [List.map_cons, List.map_nil, names, List.length_cons, List.length_nil]
  simp only [List.sum_cons, List.sum_nil, JsonText.write, JsonText.byteCount_quoted,
    JsonText.byteCount_toDigits]
  ring

/-- The text of a cursor has the shape of one if it is short enough. -/
theorem cursorShape_iff (payload tag : Bytes)
    : cursorShape ("btq1:" ++ hexEncode payload ++ "." ++ hexEncode tag) = true
      ↔ 6 + 2 * payload.length + 2 * tag.length ≤ maxTranscriptQueryCursorBytes := by
  have plain : ∀ c ∈ ("btq1:" ++ hexEncode payload ++ "." ++ hexEncode tag).toList,
      c.toNat < 128 ∧ (isAsciiWhitespace c || isAsciiControl c) = false := by
    have used : ("btq1:." ++ "0123456789abcdef").toList.all
        (fun c => c.toNat < 128 && !(isAsciiWhitespace c || isAsciiControl c)) = true := by decide
    have inside : ∀ c ∈ ("btq1:" ++ hexEncode payload ++ "." ++ hexEncode tag).toList,
        c ∈ ("btq1:." ++ "0123456789abcdef").toList := by
      intro c member
      simp only [String.toList_append, List.mem_append, hexEncode, String.toList_ofList] at member
      rcases member with ((begin | digit) | dot) | digit
      · exact List.mem_of_elem_eq_true (List.all_eq_true.mp (by decide : "btq1:".toList.all
          (fun c => ("btq1:." ++ "0123456789abcdef").toList.elem c) = true) c begin)
      · exact List.mem_append_right "btq1:.".toList (Hex.mem_encode digit)
      · obtain rfl : c = '.' := by simpa using dot
        decide
      · exact List.mem_append_right "btq1:.".toList (Hex.mem_encode digit)
    intro c member
    simpa using List.all_eq_true.mp used c (inside c member)
  have length : textLen ("btq1:" ++ hexEncode payload ++ "." ++ hexEncode tag)
      = 6 + 2 * payload.length + 2 * tag.length := by
    rw [textLen_of_ascii fun c member => (plain c member).1]
    simp only [String.length_append, length_hexEncode]
    rw [show "btq1:".length = 5 from rfl, show ".".length = 1 from rfl]
    omega
  have begins : startsWith ("btq1:" ++ hexEncode payload ++ "." ++ hexEncode tag)
      transcriptQueryCursorPrefix = true := by
    simp [startsWith, transcriptQueryCursorPrefix]
  have allAscii : ("btq1:" ++ hexEncode payload ++ "." ++ hexEncode tag).toList.all
      (·.toNat < 128) = true :=
    List.all_eq_true.mpr fun c member => decide_eq_true (plain c member).1
  have noBlank : (("btq1:" ++ hexEncode payload ++ "." ++ hexEncode tag).toList.any fun c =>
      isAsciiWhitespace c || isAsciiControl c) = false :=
    List.any_eq_false.mpr fun c member => by simp [(plain c member).2]
  have five : textLen transcriptQueryCursorPrefix = 5 := by decide
  rw [cursorShape, length, begins, allAscii, noBlank, five]
  simp only [Bool.not_true, Bool.or_false, Bool.not_eq_true', Bool.or_eq_false_iff,
    decide_eq_false_iff_not, not_lt, not_le]
  omega

/-- What is asked of claims before they are signed. -/
structure Signable (keyring : TranscriptQueryKeyringV1) (claims : TranscriptQueryCursorClaimsV1)
    : Prop where
  version : claims.schemaVersion = transcriptQueryIndexSchemaVersion
  key : claims.keyId = keyring.current.keyId
  incarnation : claims.incarnation = keyring.incarnation
  issued : 0 < claims.issuedAt
  lasting : claims.issuedAt < claims.expiresAt
  within : claims.expiresAt ≤ keyring.current.expiresAt

theorem encodeCursor_eq_ok {keyring : TranscriptQueryKeyringV1}
    {claims : TranscriptQueryCursorClaimsV1} {cursor : TranscriptQueryCursor}
    (encoded : encodeCursor crypto keyring claims = .ok cursor)
    : Signable keyring claims
      ∧ ∃ tag, cursorMac crypto keyring.current.keyHex claims.toVec = .ok tag
        ∧ cursor.encoded
          = "btq1:" ++ (hexEncode claims.toVec ++ "." ++ hexEncode tag) := by
  simp only [encodeCursor, bind_eq_ok, require_eq_ok, exists_const] at encoded
  obtain ⟨accepted, tag, mac, shaped⟩ := encoded
  refine ⟨?_, tag, mac, ?_⟩
  · simp only [Bool.not_eq_true', Bool.or_eq_false_iff, bne_eq_false_iff_eq,
      decide_eq_false_iff_not, not_le, not_lt, beq_eq_false_iff_ne, ne_eq] at accepted
    obtain ⟨⟨⟨⟨⟨version, key⟩, incarnation⟩, issued⟩, lasting⟩, within⟩ := accepted
    exact ⟨version, key, incarnation, Nat.pos_of_ne_zero issued, lasting, within⟩
  · rw [TranscriptQueryCursor.tryFromEncoded] at shaped
    split_ifs at shaped
    obtain rfl := Except.ok.inj shaped
    simp only [String.append_assoc]

/-- Claims that may be signed make a cursor unless its text is too long. -/
theorem exists_cursor_iff {keyring : TranscriptQueryKeyringV1}
    {claims : TranscriptQueryCursorClaimsV1} (signable : Signable keyring claims) {tag : Bytes}
    (mac : cursorMac crypto keyring.current.keyHex claims.toVec = .ok tag)
    : (∃ cursor, encodeCursor crypto keyring claims = .ok cursor)
      ↔ 6 + 2 * claims.toVec.length + 2 * tag.length ≤ maxTranscriptQueryCursorBytes := by
  have accepted : (!(claims.schemaVersion != transcriptQueryIndexSchemaVersion
      || claims.keyId != keyring.current.keyId || claims.incarnation != keyring.incarnation
      || claims.issuedAt == 0 || claims.expiresAt ≤ claims.issuedAt
      || keyring.current.expiresAt < claims.expiresAt)) = true := by
    simp [signable.version, signable.key, signable.incarnation, signable.lasting,
      Nat.ne_of_gt signable.issued, signable.within]
  rw [← cursorShape_iff, encodeCursor, accepted]
  rw [require_bind, if_pos rfl]
  simp only [mac, ok_bind, TranscriptQueryCursor.tryFromEncoded]
  split_ifs with shaped
  · simp [shaped]
  · simp [shaped]

/-- Which key a cursor was signed with decides whether it is read; the rest of it is read as it was
written.
-/
theorem decodeCursor_issued {issuer keyring : TranscriptQueryKeyringV1}
    {claims : TranscriptQueryCursorClaimsV1} {cursor : TranscriptQueryCursor} {now : Nat}
    (encoded : encodeCursor crypto issuer claims = .ok cursor)
    (reads : crypto.fromSlice claims.toVec = .ok claims)
    (same : keyring.incarnation = issuer.incarnation) (started : claims.issuedAt ≤ now)
    (live : now ≤ claims.expiresAt) (small : claims.expiresAt < 2 ^ 64)
    : decodeCursor crypto keyring cursor now
      = (signingKey keyring claims.keyId >>= fun key =>
          require (!decide (key.expiresAt < claims.expiresAt))
              (.config "conversation_transcript_query_cursor_stale"
                "cursor authority, incarnation, or expiry is stale") >>= fun _ =>
            cursorMac crypto issuer.current.keyHex claims.toVec >>= fun supplied =>
              cursorMac crypto key.keyHex claims.toVec >>= fun tag =>
                require (supplied == tag) (.config cursorStage "cursor authentication failed")
                  >>= fun _ => .ok claims) := by
  obtain ⟨signable, tag, mac, text⟩ := encodeCursor_eq_ok encoded
  have fresh : ¬ saturatingAdd now 300 < claims.issuedAt := by
    unfold saturatingAdd
    omega
  simp only [decodeCursor, text, dropStart_append, okOrElse_some, ok_bind,
    rsplitOnce_append _ (dot_notMem_hexEncode tag), hexDecode_hexEncode, reads, mac,
    Except.mapError]
  simp only [signable.version, signable.incarnation, same, bne_self_eq_false, Bool.false_or,
    beq_eq_false_iff_ne.mpr (Nat.ne_of_gt signable.issued), fresh, Nat.not_lt.mpr live,
    decide_false]
  rfl

/-- With its key in the keyring, a live cursor is read; without it, it is not. -/
theorem decodeCursor_eq_ok_iff {issuer keyring : TranscriptQueryKeyringV1}
    {claims : TranscriptQueryCursorClaimsV1} {cursor : TranscriptQueryCursor} {now : Nat}
    (encoded : encodeCursor crypto issuer claims = .ok cursor)
    (reads : crypto.fromSlice claims.toVec = .ok claims)
    (same : keyring.incarnation = issuer.incarnation) (started : claims.issuedAt ≤ now)
    (live : now ≤ claims.expiresAt) (small : claims.expiresAt < 2 ^ 64)
    (known : ∀ key, signingKey keyring claims.keyId = .ok key → key = issuer.current)
    : decodeCursor crypto keyring cursor now = .ok claims
      ↔ signingKey keyring claims.keyId = .ok issuer.current := by
  obtain ⟨signable, tag, mac, -⟩ := encodeCursor_eq_ok encoded
  rw [decodeCursor_issued encoded reads same started live small]
  cases found : signingKey keyring claims.keyId with
  | error failure => simp [error_bind]
  | ok key =>
      obtain rfl := known key found
      simp [ok_bind, mac, Nat.not_lt.mpr signable.within, require_bind]

/-- Whatever is read was signed, all of it, with one of the two keys of the keyring. -/
structure Authentic (crypto : CursorCrypto) (keyring : TranscriptQueryKeyringV1) (text : String)
    (claims : TranscriptQueryCursorClaimsV1)
    : Prop where
  signed : ∃ payloadHex tagHex payload tag key,
    text = "btq1:" ++ (payloadHex ++ "." ++ tagHex)
    ∧ hexDecode payloadHex = .ok payload ∧ hexDecode tagHex = .ok tag
    ∧ crypto.fromSlice payload = .ok claims
    ∧ (key = keyring.current ∨ keyring.previous = some key)
    ∧ cursorMac crypto key.keyHex payload = .ok tag

theorem rsplitOnce_eq_some {text front back : String}
    (split : rsplitOnce '.' text = some (front, back))
    : text = front ++ "." ++ back := by
  have parts := List.takeWhile_append_dropWhile (p := (· ≠ '.')) (l := text.toList.reverse)
  rw [rsplitOnce] at split
  cases rest : text.toList.reverse.dropWhile (· ≠ '.') with
  | nil => simp only [rest, reduceCtorEq] at split
  | cons dot before =>
      have head := List.head?_dropWhile_not (· ≠ '.') text.toList.reverse
      rw [rest] at head parts
      obtain rfl : dot = '.' := by simpa using head
      simp only [rest, Option.some.injEq, Prod.mk.injEq] at split
      obtain ⟨rfl, rfl⟩ := split
      have shape := congrArg List.reverse parts
      rw [List.reverse_append, List.reverse_cons, List.reverse_reverse] at shape
      rw [← String.toList_inj]
      simp only [String.toList_append, String.toList_ofList]
      exact shape.symm

theorem signingKey_eq_ok {keyring : TranscriptQueryKeyringV1} {keyId : String}
    {key : TranscriptQuerySigningKeyV1} (found : signingKey keyring keyId = .ok key)
    : key.keyId = keyId ∧ (key = keyring.current ∨ keyring.previous = some key) := by
  rw [signingKey] at found
  split_ifs at found with current
  · obtain rfl := Except.ok.inj found
    exact ⟨current.symm, .inl rfl⟩
  · obtain ⟨previous, named⟩ := Option.filter_eq_some_iff.mp (okOrElse_eq_ok.mp found)
    exact ⟨by simpa using named, .inr previous⟩

theorem decodeCursor_authentic {keyring : TranscriptQueryKeyringV1}
    {cursor : TranscriptQueryCursor} {now : Nat} {claims : TranscriptQueryCursorClaimsV1}
    (decoded : decodeCursor crypto keyring cursor now = .ok claims)
    : Authentic crypto keyring cursor.encoded claims := by
  simp only [decodeCursor, bind_eq_ok, require_eq_ok, exists_const, pure_eq_ok, okOrElse_eq_ok,
    mapError_eq_ok] at decoded
  obtain ⟨encoded, start, ⟨payloadHex, tagHex⟩, split, payload, payloadRead, read, reads, key,
    found, -, tag, tagRead, mac, signed, verified, rfl⟩ := decoded
  obtain rfl : tag = mac := by simpa using verified
  refine ⟨payloadHex, tagHex, payload, tag, key, ?_, payloadRead, tagRead, reads,
    (signingKey_eq_ok found).2, signed⟩
  rw [dropStart_eq_some start, rsplitOnce_eq_some split]

/-! ## Checks of the keyring -/

/-- A check of the keyring: the time, and the random bytes for a new key. -/
structure Check where
  now : Nat
  secret : Bytes
deriving DecidableEq, Repr

def Check.keyId (crypto : CursorCrypto) (check : Check) : String :=
  "sha256:" ++ crypto.sha256 ("key-id:" ++ hexEncode check.secret)

/-- The key that a check would make. -/
def Check.key (crypto : CursorCrypto) (check : Check) : TranscriptQuerySigningKeyV1 where
  keyId := check.keyId crypto
  keyHex := hexEncode check.secret
  createdAt := check.now
  expiresAt := saturatingAdd check.now 7776000

/-- The keyring that is stored after some checks. -/
def storedAfterAll (crypto : CursorCrypto) (memorySpaceId : String)
    (start : Option TranscriptQueryKeyringV1) (checks : List Check)
    : Option TranscriptQueryKeyringV1 :=
  checks.foldl (fun keyring check =>
    storedAfter crypto memorySpaceId keyring check.now check.secret) start

theorem storedAfterAll_append (start : Option TranscriptQueryKeyringV1) (first second : List Check)
    : storedAfterAll crypto memorySpaceId start (first ++ second)
      = storedAfterAll crypto memorySpaceId (storedAfterAll crypto memorySpaceId start first)
          second :=
  List.foldl_append

/-- What is assumed of a check: 32 random bytes, and a time far below the greatest number. -/
structure Check.Proper (check : Check) : Prop where
  secret : check.secret.length = 32
  small : check.now + 7776000 < 2 ^ 64

/-- What is assumed of the digest: 64 hexadecimal digits. -/
def HexDigest (crypto : CursorCrypto) : Prop :=
  ∀ text, (crypto.sha256 text).length = 64 ∧ (crypto.sha256 text).toList.all isLowerHex = true

/-- A keyring whose keys were made by the checks so far. -/
structure Made (crypto : CursorCrypto) (memorySpaceId : String) (past : List Check)
    (keyring : TranscriptQueryKeyringV1)
    : Prop where
  version : keyring.schemaVersion = transcriptQueryIndexSchemaVersion
  space : keyring.memorySpaceId = memorySpaceId
  incarnation : validSha256 keyring.incarnation = true
  current : ∃ check ∈ past, keyring.current = check.key crypto
  previous : ∀ key ∈ keyring.previous, ∃ check ∈ past, key = check.key crypto
  distinct : ∀ key ∈ keyring.previous, key.keyId ≠ keyring.current.keyId

/-- What a check does to a keyring that is valid: expired keys go, and a current key with seven days
or less is followed by a new one.
-/
def Follows (crypto : CursorCrypto) (check : Check) (keyring next : TranscriptQueryKeyringV1)
    : Prop :=
  next.incarnation = keyring.incarnation
  ∧ ((check.now + 604800 < keyring.current.expiresAt
      ∧ next.current = keyring.current
      ∧ next.previous = keyring.previous.filter (check.now < ·.expiresAt))
    ∨ (keyring.current.expiresAt ≤ check.now + 604800
      ∧ next.current = check.key crypto
      ∧ next.previous = (some keyring.current).filter (check.now < ·.expiresAt)))

theorem saturatingAdd_of_lt {a b : Nat} (small : a + b < 2 ^ 64) : saturatingAdd a b = a + b := by
  unfold saturatingAdd
  omega

theorem validSha256_digest (hex : HexDigest crypto) (text : String)
    : validSha256 ("sha256:" ++ crypto.sha256 text) = true := by
  obtain ⟨size, digits⟩ := hex text
  have ascii : ∀ c ∈ ("sha256:" ++ crypto.sha256 text).toList, c.toNat < 128 := by
    intro c inside
    rw [String.toList_append, List.mem_append] at inside
    rcases inside with front | back
    · have name : "sha256:".toList.all (·.toNat < 128) = true := by decide
      exact of_decide_eq_true (List.all_eq_true.mp name c front)
    · exact toNat_of_isLowerHex (List.all_eq_true.mp digits c back)
  have length : textLen ("sha256:" ++ crypto.sha256 text) = 71 := by
    rw [textLen_of_ascii ascii, String.length_append, size]
    rfl
  have begins : startsWith ("sha256:" ++ crypto.sha256 text) "sha256:" = true := by
    simp [startsWith]
  have behind : ("sha256:" ++ crypto.sha256 text).toList.drop 7 = (crypto.sha256 text).toList := by
    rw [String.toList_append]
    exact List.drop_left' (by decide)
  rw [validSha256, length, begins, behind, digits]
  rfl

theorem validKey_key (hex : HexDigest crypto) {check : Check} (proper : check.Proper)
    : validKey (check.key crypto) = true ↔ 0 < check.now := by
  have digits := hexEncode_isLowerHex check.secret
  have length : textLen (hexEncode check.secret) = 64 := by
    rw [textLen_of_ascii fun c inside => toNat_of_isLowerHex (List.all_eq_true.mp digits c inside),
      length_hexEncode, proper.secret]
  have id : validSha256 (check.keyId crypto) = true := validSha256_digest hex _
  simp [validKey, Check.key, id, length, digits, saturatingAdd_of_lt proper.small]

theorem validate_made (hex : HexDigest crypto) {past : List Check}
    (proper : ∀ check ∈ past, check.Proper) {keyring : TranscriptQueryKeyringV1}
    (made : Made crypto memorySpaceId past keyring)
    : keyring.validateForMemorySpace memorySpaceId = .ok ()
      ↔ 0 < keyring.current.createdAt ∧ ∀ key ∈ keyring.previous, 0 < key.createdAt := by
  have validOf : ∀ key : TranscriptQuerySigningKeyV1, (∃ check ∈ past, key = check.key crypto)
      → (validKey key = true ↔ 0 < key.createdAt) := by
    rintro key ⟨check, member, rfl⟩
    exact validKey_key hex (proper check member)
  rw [TranscriptQueryKeyringV1.validateForMemorySpace, require_eq_ok]
  simp only [made.version, made.space, made.incarnation, bne_self_eq_false, Bool.false_or,
    Bool.not_true, Bool.not_eq_true', Bool.or_eq_false_iff, Bool.not_eq_false',
    validOf _ made.current]
  cases shape : keyring.previous with
  | none => simp
  | some key =>
      have named := made.distinct key shape
      have valid := validOf key (made.previous key shape)
      simp [named, valid]

/-- With more than seven days left, only an expired key goes. -/
theorem storedAfter_long {keyring : TranscriptQueryKeyringV1} {now : Nat} (secret : Bytes)
    (valid : keyring.validateForMemorySpace memorySpaceId = .ok ())
    (long : saturatingAdd now 604800 < keyring.current.expiresAt)
    : storedAfter crypto memorySpaceId (some keyring) now secret
      = some { keyring with previous := keyring.previous.filter (now < ·.expiresAt) } := by
  obtain ⟨version, space, incarnation, current, previous⟩ := keyring
  cases previous with
  | none => simp [storedAfter, planQueryKeyring, valid, long]
  | some key =>
      by_cases expired : key.expiresAt ≤ now
      · simp [storedAfter, planQueryKeyring, valid, long, expired, Option.filter]
      · simp [storedAfter, planQueryKeyring, valid, long, expired, Option.filter,
          Nat.lt_of_not_le expired]

/-- A check of a valid keyring. -/
theorem storedAfter_follows (hex : HexDigest crypto) {past : List Check} {check : Check}
    (proper : ∀ check ∈ past, check.Proper) (checkProper : check.Proper)
    (fresh : check.keyId crypto ∉ past.map (·.keyId crypto)) (running : 0 < check.now)
    {keyring : TranscriptQueryKeyringV1} (made : Made crypto memorySpaceId past keyring)
    (valid : keyring.validateForMemorySpace memorySpaceId = .ok ())
    : ∃ next, storedAfter crypto memorySpaceId (some keyring) check.now check.secret = some next
      ∧ Follows crypto check keyring next ∧ Made crypto memorySpaceId (past ++ [check]) next
      ∧ next.validateForMemorySpace memorySpaceId = .ok () := by
  obtain ⟨currentRunning, previousRunning⟩ := (validate_made hex proper made).mp valid
  have allProper : ∀ other ∈ past ++ [check], other.Proper := by
    simpa [or_imp, forall_and] using And.intro proper checkProper
  have pastKey : ∀ {key : TranscriptQuerySigningKeyV1}, (∃ other ∈ past, key = other.key crypto)
      → ∃ other ∈ past ++ [check], key = other.key crypto :=
    fun ⟨other, member, shape⟩ => ⟨other, List.mem_append_left _ member, shape⟩
  have seven : saturatingAdd check.now 604800 = check.now + 604800 :=
    saturatingAdd_of_lt (by have := checkProper.small; omega)
  by_cases long : check.now + 604800 < keyring.current.expiresAt
  · have nextMade : Made crypto memorySpaceId (past ++ [check])
        { keyring with previous := keyring.previous.filter (check.now < ·.expiresAt) } :=
      { made with
        current := pastKey made.current
        previous := fun key kept => pastKey (made.previous key (Option.filter_eq_some_iff.mp kept).1)
        distinct := fun key kept => made.distinct key (Option.filter_eq_some_iff.mp kept).1 }
    refine ⟨_, storedAfter_long _ valid (by rwa [seven]), ⟨rfl, .inl ⟨long, rfl, rfl⟩⟩, nextMade,
      (validate_made hex allProper nextMade).mpr ⟨currentRunning, fun key kept => ?_⟩⟩
    exact previousRunning key (Option.filter_eq_some_iff.mp kept).1
  · have stored : storedAfter crypto memorySpaceId (some keyring) check.now check.secret
        = some { freshQueryKeyring crypto memorySpaceId check.now check.secret with
            incarnation := keyring.incarnation
            previous := (some keyring.current).filter (check.now < ·.expiresAt) } := by
      simp [storedAfter, planQueryKeyring, valid, seven, long]
    have only : ∀ key ∈ (some keyring.current).filter (check.now < ·.expiresAt),
        keyring.current = key := fun key kept =>
      Option.some.inj (Option.filter_eq_some_iff.mp kept).1
    have nextMade : Made crypto memorySpaceId (past ++ [check])
        { freshQueryKeyring crypto memorySpaceId check.now check.secret with
          incarnation := keyring.incarnation
          previous := (some keyring.current).filter (check.now < ·.expiresAt) } := by
      refine ⟨rfl, rfl, made.incarnation, ⟨check, by simp, rfl⟩, ?_, ?_⟩
      · intro key kept
        exact only key kept ▸ pastKey made.current
      · intro key kept same
        obtain ⟨other, member, shape⟩ := made.current
        rw [← only key kept, shape] at same
        exact fresh (List.mem_map.mpr ⟨other, member, same⟩)
    refine ⟨_, stored, ⟨rfl, .inr ⟨Nat.le_of_not_lt long, rfl, rfl⟩⟩, nextMade,
      (validate_made hex allProper nextMade).mpr ⟨running, fun key kept => ?_⟩⟩
    exact only key kept ▸ currentRunning

/-! ## The life of a key -/

/-- The key is in the keyring, and if it is not the current one, the current one lasts longer by
more than the time in which it is replaced.
-/
def Alive (key : TranscriptQuerySigningKeyV1) (keyring : TranscriptQueryKeyringV1) : Prop :=
  keyring.current = key
  ∨ (keyring.previous = some key ∧ keyring.current.keyId ≠ key.keyId
    ∧ key.expiresAt + 604800 < keyring.current.expiresAt)

/-- No key of the keyring has the name of the key. -/
def Gone (key : TranscriptQuerySigningKeyV1) (keyring : TranscriptQueryKeyringV1) : Prop :=
  keyring.current.keyId ≠ key.keyId ∧ ∀ other ∈ keyring.previous, other.keyId ≠ key.keyId

variable {key : TranscriptQuerySigningKeyV1} {check : Check}
variable {keyring next : TranscriptQueryKeyringV1}

theorem alive_step (proper : check.Proper) (fresh : check.keyId crypto ≠ key.keyId)
    (follows : Follows crypto check keyring next) (alive : Alive key keyring)
    (early : check.now < key.expiresAt)
    : Alive key next := by
  obtain ⟨-, ⟨long, current, previous⟩ | ⟨short, current, previous⟩⟩ := follows
  · rcases alive with rfl | ⟨kept, named, longer⟩
    · exact .inl current
    · right
      rw [previous, current, kept]
      exact ⟨by simp [Option.filter, early], named, longer⟩
  · rcases alive with rfl | ⟨kept, named, longer⟩
    · right
      have expires : next.current.expiresAt = check.now + 7776000 := by
        rw [current]
        exact saturatingAdd_of_lt proper.small
      rw [previous, expires, current]
      exact ⟨by simp [Option.filter, early], fresh, by omega⟩
    · -- The current key has too long a time left to be replaced.
      omega

theorem gone_step (fresh : check.keyId crypto ≠ key.keyId)
    (follows : Follows crypto check keyring next) (gone : Gone key keyring)
    : Gone key next := by
  obtain ⟨-, ⟨-, current, previous⟩ | ⟨-, current, previous⟩⟩ := follows
  · refine ⟨current ▸ gone.1, fun other kept => ?_⟩
    rw [previous] at kept
    exact gone.2 other (Option.filter_eq_some_iff.mp kept).1
  · refine ⟨current ▸ fresh, fun other kept => ?_⟩
    rw [previous] at kept
    exact Option.some.inj (Option.filter_eq_some_iff.mp kept).1 ▸ gone.1

theorem gone_of_expired (fresh : check.keyId crypto ≠ key.keyId)
    (follows : Follows crypto check keyring next) (alive : Alive key keyring)
    (late : key.expiresAt ≤ check.now)
    : Gone key next := by
  obtain ⟨-, ⟨long, current, previous⟩ | ⟨short, current, previous⟩⟩ := follows
  · rcases alive with rfl | ⟨kept, named, longer⟩
    · omega
    · refine ⟨current ▸ named, fun other stays => ?_⟩
      rw [previous, kept] at stays
      obtain ⟨same, live⟩ := Option.filter_eq_some_iff.mp stays
      obtain rfl := Option.some.inj same
      simp only [decide_eq_true_eq] at live
      omega
  · refine ⟨current ▸ fresh, fun other stays => ?_⟩
    rw [previous] at stays
    obtain ⟨same, live⟩ := Option.filter_eq_some_iff.mp stays
    obtain rfl := Option.some.inj same
    rcases alive with rfl | ⟨kept, named, -⟩
    · simp only [decide_eq_true_eq] at live
      omega
    · exact named

/-- Through a run of checks, a key stays until the first check that comes when it has expired, and
it does not come back.
-/
theorem run_key (hex : HexDigest crypto) {past after : List Check}
    (proper : ∀ check ∈ past ++ after, check.Proper)
    (fresh : ((past ++ after).map (·.keyId crypto)).Nodup) (running : ∀ check ∈ after, 0 < check.now)
    (made : Made crypto memorySpaceId past keyring)
    (valid : keyring.validateForMemorySpace memorySpaceId = .ok ())
    (named : key.keyId ∈ past.map (·.keyId crypto))
    : ∃ final, storedAfterAll crypto memorySpaceId (some keyring) after = some final
      ∧ final.incarnation = keyring.incarnation
      ∧ (Alive key keyring → (∀ check ∈ after, check.now < key.expiresAt) → Alive key final)
      ∧ (Alive key keyring → (∃ check ∈ after, key.expiresAt ≤ check.now) → Gone key final)
      ∧ (Gone key keyring → Gone key final) := by
  induction after generalizing past keyring with
  | nil => exact ⟨keyring, rfl, rfl, fun alive _ => alive, by simp, id⟩
  | cons check after ih =>
      have checkProper : check.Proper := proper check (by simp)
      have order : past ++ check :: after = past ++ [check] ++ after := by simp
      have unknown : check.keyId crypto ∉ past.map (·.keyId crypto) := by
        rw [order, List.map_append, List.map_append] at fresh
        have both := (List.nodup_append.mp (List.nodup_append.mp fresh).1).2.2
        exact fun member => both _ member _ (by simp) rfl
      have other : check.keyId crypto ≠ key.keyId := fun same => unknown (same ▸ named)
      obtain ⟨next, stored, follows, nextMade, nextValid⟩ := storedAfter_follows hex
        (fun c member => proper c (List.mem_append_left _ member)) checkProper unknown
        (running check (by simp)) made valid
      have restProper : ∀ c ∈ past ++ [check] ++ after, c.Proper := order ▸ proper
      have restFresh : ((past ++ [check] ++ after).map (·.keyId crypto)).Nodup := order ▸ fresh
      obtain ⟨final, reached, incarnation, stays, goes, away⟩ := ih restProper restFresh
        (fun c member => running c (List.mem_cons_of_mem _ member)) nextMade nextValid
        (by simp [named])
      refine ⟨final, ?_, incarnation.trans follows.1, ?_, ?_, ?_⟩
      · rw [storedAfterAll, List.foldl_cons, stored]
        exact reached
      · intro alive early
        exact stays (alive_step checkProper other follows alive (early check (by simp)))
          fun c member => early c (List.mem_cons_of_mem _ member)
      · rintro alive ⟨late, member, expired⟩
        by_cases now : key.expiresAt ≤ check.now
        · exact away (gone_of_expired other follows alive now)
        · have later : late ∈ after := (List.mem_cons.mp member).resolve_left fun same =>
            now (same ▸ expired)
          exact goes (alive_step checkProper other follows alive (Nat.lt_of_not_le now))
            ⟨late, later, expired⟩
      · exact fun gone => away (gone_step other follows gone)

theorem Made.mono {past more : List Check} (made : Made crypto memorySpaceId past keyring)
    : Made crypto memorySpaceId (past ++ more) keyring :=
  { made with
    current := made.current.imp fun _ known => ⟨List.mem_append_left _ known.1, known.2⟩
    previous := fun key kept => (made.previous key kept).imp fun _ known =>
      ⟨List.mem_append_left _ known.1, known.2⟩ }

/-- From the beginning on, the keys of the keyring are made by the checks. A keyring made at the time
zero is invalid, and then no check changes it.
-/
theorem made_of_run (hex : HexDigest crypto) {past : List Check}
    (proper : ∀ check ∈ past, check.Proper)
    (fresh : (past.map (·.keyId crypto)).Nodup) (clock : (past.map (·.now)).Pairwise (· ≤ ·))
    (reached : storedAfterAll crypto memorySpaceId none past = some keyring)
    : Made crypto memorySpaceId past keyring := by
  induction past using List.reverseRecOn generalizing keyring with
  | nil => cases reached
  | append_singleton past check ih =>
      rw [storedAfterAll_append] at reached
      rw [List.map_append, List.map_singleton] at fresh clock
      have pastProper : ∀ c ∈ past, c.Proper := fun c member =>
        proper c (List.mem_append_left _ member)
      have unknown : check.keyId crypto ∉ past.map (·.keyId crypto) := fun member =>
        (List.nodup_append.mp fresh).2.2 _ member _ List.mem_cons_self rfl
      change storedAfter crypto memorySpaceId (storedAfterAll crypto memorySpaceId none past)
        check.now check.secret = some keyring at reached
      cases before : storedAfterAll crypto memorySpaceId none past with
      | none =>
          rw [before] at reached
          obtain rfl : freshQueryKeyring crypto memorySpaceId check.now check.secret = keyring :=
            Option.some.inj reached
          exact ⟨rfl, rfl, validSha256_digest hex _, ⟨check, by simp, rfl⟩, by rintro _ ⟨⟩,
            by rintro _ ⟨⟩⟩
      | some earlier =>
          have made := ih pastProper (List.nodup_append.mp fresh).1
            (List.pairwise_append.mp clock).1 before
          rw [before] at reached
          cases valid : earlier.validateForMemorySpace memorySpaceId with
          | error failure =>
              obtain rfl : earlier = keyring := by
                simpa [storedAfter, planQueryKeyring, valid, error_bind] using reached
              exact made.mono
          | ok _ =>
              have running : 0 < check.now := by
                have created := ((validate_made hex pastProper made).mp valid).1
                obtain ⟨other, member, shape⟩ := made.current
                have notLater := (List.pairwise_append.mp clock).2.2 other.now
                  (List.mem_map_of_mem member) check.now List.mem_cons_self
                rw [shape] at created
                exact Nat.lt_of_lt_of_le created notLater
              obtain ⟨next, stored, -, nextMade, -⟩ := storedAfter_follows hex pastProper
                (proper check (by simp)) unknown running made valid
              rw [stored] at reached
              exact Option.some.inj reached ▸ nextMade

theorem ensureQueryKeyring_eq_ok {before : Option TranscriptQueryKeyringV1} {now : Nat}
    {secret : Bytes}
    (ensured : ensureQueryKeyring crypto memorySpaceId before now secret = .ok keyring)
    : storedAfter crypto memorySpaceId before now secret = some keyring
      ∧ keyring.validateForMemorySpace memorySpaceId = .ok () := by
  obtain ⟨-, -, loaded⟩ := bind_eq_ok.mp ensured
  cases stored : storedAfter crypto memorySpaceId before now secret with
  | none => simp [stored] at loaded
  | some found =>
      simp only [stored, bind_eq_ok, pure_eq_ok] at loaded
      obtain ⟨_, valid, rfl⟩ := loaded
      exact ⟨rfl, valid⟩

theorem signingKey_of_alive (alive : Alive key keyring)
    : signingKey keyring key.keyId = .ok key := by
  rcases alive with rfl | ⟨kept, named, -⟩
  · exact if_pos rfl
  · rw [signingKey, if_neg (Ne.symm named), kept]
    simp [Option.filter]

theorem signingKey_of_gone (gone : Gone key keyring)
    : signingKey keyring key.keyId = .error (.config cursorStage "cursor signing key is stale") := by
  rw [signingKey, if_neg (Ne.symm gone.1)]
  have none : keyring.previous.filter (·.keyId == key.keyId) = none := by
    rw [Option.filter_eq_none_iff]
    exact fun other kept => by simpa using gone.2 other kept
  rw [none]
  rfl

/-- In every run of checks, a live cursor is read back exactly if no check since it was issued came
when its key had expired; and whatever is read was signed with a key of the keyring.
-/
theorem cursor_read_iff (hex : HexDigest crypto)
    (reads : ∀ claims, crypto.fromSlice claims.toVec = .ok claims)
    : (∀ (before after : List Check) (check : Check),
        (∀ c ∈ before ++ check :: after, c.Proper)
        → ((before ++ check :: after).map (·.keyId crypto)).Nodup
        → ((before ++ check :: after).map (·.now)).Pairwise (· ≤ ·)
        → ∀ issuer claims cursor now,
          ensureQueryKeyring crypto memorySpaceId (storedAfterAll crypto memorySpaceId none before)
              check.now check.secret = .ok issuer
          → encodeCursor crypto issuer claims = .ok cursor
          → claims.issuedAt ≤ now → now ≤ claims.expiresAt
          → ((∃ keyring,
                storedAfterAll crypto memorySpaceId none (before ++ check :: after) = some keyring
                ∧ decodeCursor crypto keyring cursor now = .ok claims)
              ↔ ∀ c ∈ after, c.now < issuer.current.expiresAt))
      ∧ ∀ keyring cursor now claims, decodeCursor crypto keyring cursor now = .ok claims
        → Authentic crypto keyring cursor.encoded claims := by
  refine ⟨?_, fun keyring cursor now claims decoded => decodeCursor_authentic decoded⟩
  intro before after check proper fresh clock issuer claims cursor now ensured encoded started live
  obtain ⟨stored, valid⟩ := ensureQueryKeyring_eq_ok ensured
  have order : before ++ check :: after = before ++ [check] ++ after := by simp
  rw [order] at proper fresh clock
  have issuedAfter : storedAfterAll crypto memorySpaceId none (before ++ [check]) = some issuer := by
    rw [storedAfterAll_append]
    exact stored
  have pastProper : ∀ c ∈ before ++ [check], c.Proper := fun c member =>
    proper c (List.mem_append_left _ member)
  rw [List.map_append] at clock
  have pastFresh : ((before ++ [check]).map (·.keyId crypto)).Nodup := by
    rw [List.map_append] at fresh
    exact (List.nodup_append.mp fresh).1
  have made : Made crypto memorySpaceId (before ++ [check]) issuer :=
    made_of_run hex pastProper pastFresh (List.pairwise_append.mp clock).1 issuedAfter
  obtain ⟨maker, makerPast, currentKey⟩ := made.current
  have running : ∀ c ∈ after, 0 < c.now := by
    intro c member
    have created := ((validate_made hex pastProper made).mp valid).1
    have notLater := (List.pairwise_append.mp clock).2.2 maker.now (List.mem_map_of_mem makerPast)
      c.now (List.mem_map_of_mem member)
    rw [currentKey] at created
    exact Nat.lt_of_lt_of_le created notLater
  have named : issuer.current.keyId ∈ (before ++ [check]).map (·.keyId crypto) :=
    List.mem_map.mpr ⟨maker, makerPast, by rw [currentKey]; rfl⟩
  obtain ⟨final, reached, incarnation, stays, goes, -⟩ :=
    run_key hex proper fresh running made valid named
  have whole : storedAfterAll crypto memorySpaceId none (before ++ check :: after) = some final := by
    rw [order, storedAfterAll_append, issuedAfter]
    exact reached
  obtain ⟨signable, -⟩ := encodeCursor_eq_ok encoded
  have small : claims.expiresAt < 2 ^ 64 := by
    have within := signable.within
    rw [currentKey] at within
    have bound : (maker.key crypto).expiresAt ≤ 2 ^ 64 - 1 := Nat.min_le_right _ _
    omega
  rw [whole]
  simp only [Option.some.injEq, exists_eq_left']
  by_cases early : ∀ c ∈ after, c.now < issuer.current.expiresAt
  · have found := signingKey_of_alive (stays (.inl rfl) early)
    rw [← signable.key] at found
    rw [decodeCursor_eq_ok_iff encoded (reads claims) incarnation started live small
      fun key here => Except.ok.inj (here.symm.trans found)]
    exact ⟨fun _ => early, fun _ => found⟩
  · have stale := signingKey_of_gone (goes (.inl rfl) (by push Not at early; exact early))
    rw [← signable.key] at stale
    rw [decodeCursor_eq_ok_iff encoded (reads claims) incarnation started live small
      fun key here => by rw [stale] at here; cases here]
    rw [stale]
    simp [early]

/-! ## The last second -/

/-- The claims in a JSON text, by their places in it. -/
def readClaims (bytes : Bytes) : Except String TranscriptQueryCursorClaimsV1 :=
  match JsonText.fromBytes bytes with
  | some (.object [(_, .number schemaVersion), (_, .string keyId), (_, .string kind),
      (_, .string direction), (_, .string queryDigest), (_, .string lifecycle),
      (_, .string viewContext), (_, .number limit), (_, .string memorySpaceId),
      (_, .string mountedSubjectId), (_, .string channelId), (_, .string conversationId),
      (_, .number headRevision), (_, .string headDigest), (_, .number snapshotUpperBound),
      (_, .number contentGeneration), (_, .number indexGeneration), (_, .number position),
      (_, .string incarnation), (_, .number issuedAt), (_, .number expiresAt)]) =>
      .ok ⟨schemaVersion, keyId, kind, direction, queryDigest, lifecycle, viewContext, limit,
        memorySpaceId, mountedSubjectId, channelId, conversationId, headRevision, headDigest,
        snapshotUpperBound, contentGeneration, indexGeneration, position, incarnation, issuedAt,
        expiresAt⟩
  | _ => .error "invalid claims"

theorem readClaims_toVec (claims : TranscriptQueryCursorClaimsV1)
    : readClaims claims.toVec = .ok claims := by
  simp only [readClaims, TranscriptQueryCursorClaimsV1.toVec, JsonText.fromBytes_toBytes,
    TranscriptQueryCursorClaimsV1.toJson]

/-- Sixty-four digits from the end of a text, and a code that is the same for all messages. -/
def sampleCrypto : CursorCrypto where
  sha256 text := String.ofList
    (((text.toList.filter isLowerHex).reverse ++ List.replicate 64 '0').take 64)
  hmac _ _ := List.replicate 32 7
  fromSlice := readClaims

theorem sampleCrypto_hex : HexDigest sampleCrypto := by
  intro text
  constructor
  · simp [sampleCrypto]
  · simp only [sampleCrypto, String.toList_ofList, List.all_eq_true]
    intro c inside
    rcases List.mem_append.mp (List.mem_of_mem_take inside) with digit | zero
    · exact (List.mem_filter.mp (List.mem_reverse.mp digit)).2
    · obtain rfl := List.eq_of_mem_replicate zero
      decide

theorem sampleCrypto_reads (claims : TranscriptQueryCursorClaimsV1)
    : sampleCrypto.fromSlice claims.toVec = .ok claims :=
  readClaims_toVec claims

def sampleCheck (now : Nat) (byte : UInt8) : Check :=
  ⟨now, List.replicate 32 byte⟩

/-- The keyring of the first check, which the second one leaves as it is. -/
def sampleKeyring : TranscriptQueryKeyringV1 :=
  freshQueryKeyring sampleCrypto "space" 1 (sampleCheck 1 1).secret

/-- Claims made in the second after a check, when the key has seven days left. -/
def sampleClaims : TranscriptQueryCursorClaimsV1 where
  schemaVersion := 1
  keyId := sampleKeyring.current.keyId
  kind := "catalog_active"
  direction := "forward"
  queryDigest := "sha256:" ++ sampleCrypto.sha256 "query"
  lifecycle := "ActiveOnly"
  viewContext := "candidate"
  limit := 1
  memorySpaceId := "space"
  mountedSubjectId := "subject"
  channelId := "*"
  conversationId := "*"
  headRevision := 2
  headDigest := "sha256:" ++ sampleCrypto.sha256 "head"
  snapshotUpperBound := 2
  contentGeneration := 2
  indexGeneration := 2
  position := 1
  incarnation := sampleKeyring.incarnation
  issuedAt := 7171201
  expiresAt := min (saturatingAdd 7171201 604800) sampleKeyring.current.expiresAt

theorem sampleClaims_issued
    : ensureQueryKeyring sampleCrypto "space"
          (storedAfterAll sampleCrypto "space" none [sampleCheck 1 1]) 7171200
          (sampleCheck 7171200 2).secret
        = .ok sampleKeyring
      ∧ ∃ cursor, encodeCursor sampleCrypto sampleKeyring sampleClaims = .ok cursor := by
  refine ⟨by decide +kernel, ?_⟩
  have signable : Signable sampleKeyring sampleClaims :=
    ⟨rfl, rfl, rfl, by decide, by decide, by decide⟩
  have mac : cursorMac sampleCrypto sampleKeyring.current.keyHex sampleClaims.toVec
      = .ok (List.replicate 32 7) := by
    change cursorMac sampleCrypto (hexEncode (sampleCheck 1 1).secret) sampleClaims.toVec = _
    rw [cursorMac, hexDecode_hexEncode]
    rfl
  have short : sampleClaims.valueCount ≤ 1659 := by decide +kernel
  rw [exists_cursor_iff signable mac, length_toVec, List.length_replicate,
    maxTranscriptQueryCursorBytes]
  omega

/-- A cursor that is live until the second in which its key expires, and a check in that second. -/
theorem last_second_refused
    : ∃ cursor keyring,
        ensureQueryKeyring sampleCrypto "space"
            (storedAfterAll sampleCrypto "space" none [sampleCheck 1 1]) 7171200
            (sampleCheck 7171200 2).secret
          = .ok sampleKeyring
        ∧ encodeCursor sampleCrypto sampleKeyring sampleClaims = .ok cursor
        ∧ sampleClaims.expiresAt = 7776001
        ∧ storedAfterAll sampleCrypto "space" none
            [sampleCheck 1 1, sampleCheck 7171200 2, sampleCheck 7776001 3] = some keyring
        ∧ decodeCursor sampleCrypto keyring cursor 7776001
          = .error (.config cursorStage "cursor signing key is stale") := by
  obtain ⟨ensured, cursor, encoded⟩ := sampleClaims_issued
  obtain ⟨keyring, stored⟩ : ∃ keyring, storedAfterAll sampleCrypto "space" none
      [sampleCheck 1 1, sampleCheck 7171200 2, sampleCheck 7776001 3] = some keyring :=
    Option.isSome_iff_exists.mp (by decide +kernel)
  have kept : (storedAfterAll sampleCrypto "space" none
      [sampleCheck 1 1, sampleCheck 7171200 2, sampleCheck 7776001 3]).map (·.incarnation)
        = some sampleKeyring.incarnation := by decide +kernel
  have stale : (storedAfterAll sampleCrypto "space" none
      [sampleCheck 1 1, sampleCheck 7171200 2, sampleCheck 7776001 3]).map
        (signingKey · sampleClaims.keyId)
          = some (.error (.config cursorStage "cursor signing key is stale")) := by decide +kernel
  rw [stored] at kept stale
  simp only [Option.map_some, Option.some.injEq] at kept stale
  refine ⟨cursor, keyring, ensured, encoded, by decide, stored, ?_⟩
  rw [decodeCursor_issued encoded (sampleCrypto_reads _) kept (by decide) (by decide)
    (by decide), stale]
  rfl

/-- Witness: in the second before, the check keeps the key, and the cursor is read. -/
theorem second_before_read
    : ∃ cursor keyring,
        encodeCursor sampleCrypto sampleKeyring sampleClaims = .ok cursor
        ∧ storedAfterAll sampleCrypto "space" none
            [sampleCheck 1 1, sampleCheck 7171200 2, sampleCheck 7776000 3] = some keyring
        ∧ decodeCursor sampleCrypto keyring cursor 7776000 = .ok sampleClaims := by
  obtain ⟨ensured, cursor, encoded⟩ := sampleClaims_issued
  have proper : ∀ c ∈ [sampleCheck 1 1, sampleCheck 7171200 2, sampleCheck 7776000 3],
      c.Proper := by
    intro c member
    simp only [List.mem_cons, List.not_mem_nil, or_false] at member
    rcases member with rfl | rfl | rfl <;> exact ⟨by decide, by decide⟩
  obtain ⟨keyring, stored, read⟩ := ((cursor_read_iff sampleCrypto_hex sampleCrypto_reads).1
    [sampleCheck 1 1] [sampleCheck 7776000 3] (sampleCheck 7171200 2) proper (by decide +kernel)
    (by decide) sampleKeyring sampleClaims cursor 7776000 ensured encoded (by decide)
    (by decide)).mpr (by decide +kernel)
  exact ⟨cursor, keyring, encoded, stored, read⟩

end BeetleMemory.Transcript
