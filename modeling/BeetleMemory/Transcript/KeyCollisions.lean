import BeetleMemory.Transcript.Keys
import BeetleMemory.Lib.Digests

/-! Storage keys of the query indexes tell what they address, up to one exception: the catalog of
all channels and the catalog of a channel called by a star share theirs.
-/

namespace BeetleMemory.Transcript

open Framing (Short)
open Store (textBytes)

variable {sha256 : List UInt8 → String}

theorem textBytes_inj {text other : String} (same : textBytes text = textBytes other)
    : text = other :=
  Framing.utf8_injective same

/-- The texts hashed are known from the hash. -/
theorem hashParts_inj (injective : Function.Injective sha256) {domain otherDomain : String}
    {parts others : List String}
    (short : ∀ part ∈ domain :: parts, Short (textBytes part))
    (otherShort : ∀ part ∈ otherDomain :: others, Short (textBytes part))
    (same : hashParts sha256 domain parts = hashParts sha256 otherDomain others)
    : domain = otherDomain ∧ parts = others := by
  have digests : sha256 (Framing.frames ((domain :: parts).map textBytes))
      = sha256 (Framing.frames ((otherDomain :: others).map textBytes)) := by
    have lists := congrArg String.toList same
    simp only [hashParts, String.toList_append, List.append_cancel_left_eq] at lists
    exact String.toList_inj.mp lists
  have fields := Framing.frames_inj (List.forall_mem_map.mpr short)
    (List.forall_mem_map.mpr otherShort) (injective digests)
  exact List.cons.inj (List.map_injective_iff.mpr (fun _ _ => textBytes_inj) fields)

theorem toString_word_inj {n m : UInt64} (same : toString n.toNat = toString m.toNat) : n = m :=
  UInt64.toNat_inj.mp (Digests.toString_injective same)

namespace IndexAddress

/-- What the storage key is a hash of: the kind of the address, and its parts. -/
def domain : IndexAddress → String
  | catalogRoot .. => "conversation_transcript_catalog_root_v1"
  | catalogPage .. => "conversation_transcript_catalog_page_v1"
  | timeRoot .. => "conversation_transcript_time_root_v1"
  | timePosting .. => "conversation_transcript_time_posting_v1"
  | searchRoot .. => "conversation_transcript_search_root_v1"
  | searchPosting .. => "conversation_transcript_search_posting_v1"
  | messageManifest .. => "conversation_transcript_search_message_manifest_v1"
  | keyring .. => "conversation_transcript_query_keyring_v1"

def parts (sha256 : List UInt8 → String) : IndexAddress → List String
  | catalogRoot space subject channel => [space, subject, channel.getD "*"]
  | catalogPage space subject channel page =>
      [space, subject, channel.getD "*", toString page.toNat]
  | timeRoot key subject day =>
      [key.memorySpaceId, subject, key.channelId, key.conversationId, toString day.toNat]
  | timePosting key subject day page =>
      [key.memorySpaceId, subject, key.channelId, key.conversationId, toString day.toNat,
        toString page.toNat]
  | searchRoot space subject term => [space, subject, termDigest sha256 term]
  | searchPosting space subject term page =>
      [space, subject, termDigest sha256 term, toString page.toNat]
  | messageManifest locator =>
      [locator.key.memorySpaceId, locator.mountedSubjectId, locator.key.channelId,
        locator.key.conversationId, locator.turnId, locator.messageId.getD ""]
  | keyring space => [space]

theorem storageKey_eq (address : IndexAddress)
    : address.storageKey sha256 = hashParts sha256 address.domain (address.parts sha256) := by
  cases address <;> rfl

/-- The texts of the address are ones a machine can hold, and the message it names, if any, has a
name.
-/
structure Held (sha256 : List UInt8 → String) (address : IndexAddress) : Prop where
  parts_short : ∀ part ∈ address.parts sha256, Short (textBytes part)
  term_short : ∀ space subject term,
    (address = searchRoot space subject term
      ∨ ∃ page, address = searchPosting space subject term page)
    → Short (textBytes term)
  named : ∀ locator, address = messageManifest locator → locator.messageId ≠ some ""

/-- The catalog of all channels, and that of the channel called by a star. -/
inductive StarTwins : IndexAddress → IndexAddress → Prop
  | root (space subject : String)
    : StarTwins (catalogRoot space subject none) (catalogRoot space subject (some "*"))
  | page (space subject : String) (page : UInt64)
    : StarTwins (catalogPage space subject none page) (catalogPage space subject (some "*") page)

theorem domain_short (address : IndexAddress) : Short (textBytes address.domain) := by
  have short : ∀ domain ∈ ["conversation_transcript_catalog_root_v1",
      "conversation_transcript_catalog_page_v1", "conversation_transcript_time_root_v1",
      "conversation_transcript_time_posting_v1", "conversation_transcript_search_root_v1",
      "conversation_transcript_search_posting_v1",
      "conversation_transcript_search_message_manifest_v1",
      "conversation_transcript_query_keyring_v1"], Short (textBytes domain) := by
    unfold Short
    decide +kernel
  cases address <;> exact short _ (by simp [domain])

theorem termDigest_inj (injective : Function.Injective sha256) {term other : String}
    (short : Short (textBytes term)) (otherShort : Short (textBytes other))
    (same : termDigest sha256 term = termDigest sha256 other)
    : term = other := by
  have domainShort : Short (textBytes "conversation_transcript_search_term_v1") := by
    unfold Short
    decide +kernel
  have parts := (hashParts_inj injective (by simpa using ⟨domainShort, short⟩)
    (by simpa using ⟨domainShort, otherShort⟩) same).2
  exact List.singleton_inj.mp parts

/-- A channel is known from what stands for it, except that a star stands for two things. -/
theorem channel_cases {channel other : Option String} (same : channel.getD "*" = other.getD "*")
    : channel = other ∨ (channel = none ∧ other = some "*") ∨ (other = none ∧ channel = some "*") := by
  cases channel <;> cases other <;> simp_all

theorem messageId_inj {message other : Option String} (named : message ≠ some "")
    (otherNamed : other ≠ some "") (same : message.getD "" = other.getD "")
    : message = other := by
  cases message <;> cases other <;> simp_all

variable {address other : IndexAddress}

/-- Addresses with the same key are the same or the two that a star stands for. -/
theorem cases_of_storageKey_eq (injective : Function.Injective sha256)
    (held : address.Held sha256) (otherHeld : other.Held sha256)
    (same : address.storageKey sha256 = other.storageKey sha256)
    : address = other ∨ StarTwins address other ∨ StarTwins other address := by
  rw [storageKey_eq, storageKey_eq] at same
  obtain ⟨domains, parts⟩ := hashParts_inj injective
    (List.forall_mem_cons.mpr ⟨domain_short address, held.parts_short⟩)
    (List.forall_mem_cons.mpr ⟨domain_short other, otherHeld.parts_short⟩) same
  cases address <;> cases other <;> simp [domain] at domains
  case catalogRoot.catalogRoot space subject channel space' subject' channel' =>
    simp only [IndexAddress.parts, List.cons.injEq, and_true] at parts
    obtain ⟨rfl, rfl, channels⟩ := parts
    rcases channel_cases channels with rfl | ⟨rfl, rfl⟩ | ⟨rfl, rfl⟩
    · exact .inl rfl
    · exact .inr (.inl (.root _ _))
    · exact .inr (.inr (.root _ _))
  case catalogPage.catalogPage space subject channel page space' subject' channel' page' =>
    simp only [IndexAddress.parts, List.cons.injEq, and_true] at parts
    obtain ⟨rfl, rfl, channels, pages⟩ := parts
    obtain rfl := toString_word_inj pages
    rcases channel_cases channels with rfl | ⟨rfl, rfl⟩ | ⟨rfl, rfl⟩
    · exact .inl rfl
    · exact .inr (.inl (.page _ _ _))
    · exact .inr (.inr (.page _ _ _))
  case timeRoot.timeRoot key subject day key' subject' day' =>
    simp only [IndexAddress.parts, List.cons.injEq, and_true] at parts
    obtain ⟨spaces, rfl, channels, conversations, days⟩ := parts
    obtain rfl := toString_word_inj days
    cases key
    cases key'
    simp_all
  case timePosting.timePosting key subject day page key' subject' day' page' =>
    simp only [IndexAddress.parts, List.cons.injEq, and_true] at parts
    obtain ⟨spaces, rfl, channels, conversations, days, pages⟩ := parts
    obtain rfl := toString_word_inj days
    obtain rfl := toString_word_inj pages
    cases key
    cases key'
    simp_all
  case searchRoot.searchRoot space subject term space' subject' term' =>
    simp only [IndexAddress.parts, List.cons.injEq, and_true] at parts
    obtain ⟨rfl, rfl, terms⟩ := parts
    have short := held.term_short _ _ term (.inl rfl)
    have otherShort := otherHeld.term_short _ _ term' (.inl rfl)
    rw [termDigest_inj injective short otherShort terms]
    exact .inl rfl
  case searchPosting.searchPosting space subject term page space' subject' term' page' =>
    simp only [IndexAddress.parts, List.cons.injEq, and_true] at parts
    obtain ⟨rfl, rfl, terms, pages⟩ := parts
    obtain rfl := toString_word_inj pages
    have short := held.term_short _ _ term (.inr ⟨_, rfl⟩)
    have otherShort := otherHeld.term_short _ _ term' (.inr ⟨_, rfl⟩)
    rw [termDigest_inj injective short otherShort terms]
    exact .inl rfl
  case messageManifest.messageManifest locator locator' =>
    simp only [IndexAddress.parts, List.cons.injEq, and_true] at parts
    obtain ⟨spaces, subjects, channels, conversations, turns, messages⟩ := parts
    have message := messageId_inj (held.named locator rfl) (otherHeld.named locator' rfl) messages
    obtain ⟨⟨_, _, _⟩, _, _, _⟩ := locator
    obtain ⟨⟨_, _, _⟩, _, _, _⟩ := locator'
    simp_all
  case keyring.keyring space space' =>
    simp only [IndexAddress.parts, List.cons.injEq, and_true] at parts
    rw [parts]
    exact .inl rfl

theorem storageKey_eq_of_twins (twins : StarTwins address other)
    : address.storageKey sha256 = other.storageKey sha256 := by
  cases twins <;> rfl

theorem StarTwins.channel_eq {space subject : String} {channel : Option String}
    (twins : StarTwins address (catalogRoot space subject channel))
    : channel = some "*" := by
  generalize same : catalogRoot space subject channel = starred at twins
  cases twins with
  | root => exact (catalogRoot.inj same).2.2
  | page => cases same

theorem StarTwins.ne (twins : StarTwins address other) : address ≠ other := by
  cases twins <;> simp

end IndexAddress

/-- Different addresses have different keys, except for the catalogs of all channels and of the
channel called by a star, which never have.
-/
theorem index_keys_distinct (sha256 : List UInt8 → String) (injective : Function.Injective sha256)
    (address other : IndexAddress) (held : address.Held sha256) (otherHeld : other.Held sha256)
    : (address ≠ other → address.storageKey sha256 ≠ other.storageKey sha256)
      ↔ ¬ IndexAddress.StarTwins address other ∧ ¬ IndexAddress.StarTwins other address := by
  constructor
  · intro distinct
    refine ⟨fun twins => ?_, fun twins => ?_⟩
    · exact distinct twins.ne (IndexAddress.storageKey_eq_of_twins twins)
    · exact distinct twins.ne.symm (IndexAddress.storageKey_eq_of_twins twins).symm
  · rintro ⟨plain, otherPlain⟩ differ same
    rcases IndexAddress.cases_of_storageKey_eq injective held otherHeld same with
      equal | twins | twins
    · exact differ equal
    · exact plain twins
    · exact otherPlain twins

/-- A conversation may be in a channel called by a star, whose catalog then has the key of the
catalog of all channels.
-/
theorem star_channel_shares_key
    : ConversationKey.new "space" "*" "conversation" = .ok ⟨"space", "*", "conversation"⟩
      ∧ IndexAddress.catalogRoot "space" "subject" none
        ≠ IndexAddress.catalogRoot "space" "subject" (some "*")
      ∧ ∀ sha256, (IndexAddress.catalogRoot "space" "subject" none).storageKey sha256
        = (IndexAddress.catalogRoot "space" "subject" (some "*")).storageKey sha256 :=
  ⟨by decide +kernel, by decide, fun _ => rfl⟩

/-- The catalogs of all channels and of a channel with another name. -/
theorem named_channel_has_own_key
    : ∃ sha256, Function.Injective sha256
        ∧ (IndexAddress.catalogRoot "space" "subject" none).storageKey sha256
          ≠ (IndexAddress.catalogRoot "space" "subject" (some "mail")).storageKey sha256 := by
  have held : ∀ channel ∈ [none, some "mail"],
      (IndexAddress.catalogRoot "space" "subject" channel).Held Digests.byteText := by
    intro channel member
    refine ⟨?_, by simp, by simp⟩
    have short : ∀ part ∈ ["space", "subject", "*", "mail"], Short (textBytes part) := by
      unfold Short
      decide +kernel
    intro part inside
    apply short
    rcases List.mem_pair.mp member with rfl | rfl <;>
      simp only [IndexAddress.parts, Option.getD_none, Option.getD_some, List.mem_cons,
        List.not_mem_nil, or_false] at inside ⊢ <;>
      tauto
  refine ⟨Digests.byteText, Digests.byteText_injective, ?_⟩
  refine (index_keys_distinct Digests.byteText Digests.byteText_injective _ _ (held none (by simp))
    (held (some "mail") (by simp))).mpr ⟨?_, ?_⟩ (by simp)
  · intro twins
    exact absurd twins.channel_eq (by decide)
  · intro twins
    exact absurd twins.channel_eq (by decide)

end BeetleMemory.Transcript
