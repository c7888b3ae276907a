import BeetleMemory.Store.Basic

/-! Owner revisions and the immutable material a long-term memory keeps of each of them, with
the checks a material has to pass. Times and revisions are unsigned 64-bit words of the source:
they are natural numbers, and an addition that the source checks is checked here.
-/

namespace BeetleMemory.LongTerm

open Store (Error trimIsEmpty isWhitespace startsWith dropStart)

/-! ## Texts and words -/

/-- The text without the white space around it. -/
def trim (text : String) : String :=
  String.ofList (((text.toList.dropWhile isWhitespace).reverse.dropWhile isWhitespace).reverse)

/-- The text is empty after trimming, or trimming changes it. -/
def notCanonical (text : String) : Bool :=
  trimIsEmpty text || text != trim text

/-- The text around the first occurrence of a separator. -/
def splitOnce (separator : List Char) : List Char → Option (List Char × List Char)
  | [] => if separator.isEmpty then some ([], []) else none
  | c :: rest =>
      if separator.isPrefixOf (c :: rest) then
        some ([], (c :: rest).drop separator.length)
      else (splitOnce separator rest).map fun parts => (c :: parts.1, parts.2)

/-- Addition of one on unsigned 64-bit words, when it does not overflow. -/
def checkedNext (n : Nat) : Option Nat :=
  if n + 1 < 2 ^ 64 then some (n + 1) else none

theorem checkedNext_eq_some {n next : Nat}
    : checkedNext n = some next ↔ next = n + 1 ∧ n + 1 < 2 ^ 64 := by
  simp only [checkedNext]
  split_ifs <;> simp_all [eq_comm]

/-- Sixty-four lowercase hexadecimal digits. -/
def isLowercaseSha256 (value : String) : Bool :=
  value.toList.length == 64
    && value.toList.all fun c => ('0' ≤ c && c ≤ '9') || ('a' ≤ c && c ≤ 'f')

/-- The consecutive pairs of a list. -/
def pairs {α : Type} (items : List α) : List (α × α) :=
  items.zip items.tail

/-! ## Contract failures -/

inductive GovernedContractFailure where
  | ownerRevisionRefInvalid
  | validityIntervalInvalid
  | validitySelfLoop
  | validityTerminationMismatch
  | validitySuccessorMismatch
  | eligibilityReasonMissing
  | eligibilityReasonUnexpected
  | eligibilityReasonDuplicate
  | eligibilityReasonLimitExceeded
  | eligibilityPrimaryReasonMismatch
  | premiseGateInvalid
  | contentDigestMismatch
  | headManifestClosureMismatch
  | lineageDuplicateRevision
  | lineageCycle
  | lineageGap
  | lineageScopeMismatch
  | lineagePrivacyMismatch
  | lineageDepthExceeded
  | lineageFailureMismatch
deriving DecidableEq, Repr

namespace GovernedContractFailure

/-- The name under which a failure is shown in an error text. -/
def name : GovernedContractFailure → String
  | .ownerRevisionRefInvalid => "OwnerRevisionRefInvalid"
  | .validityIntervalInvalid => "ValidityIntervalInvalid"
  | .validitySelfLoop => "ValiditySelfLoop"
  | .validityTerminationMismatch => "ValidityTerminationMismatch"
  | .validitySuccessorMismatch => "ValiditySuccessorMismatch"
  | .eligibilityReasonMissing => "EligibilityReasonMissing"
  | .eligibilityReasonUnexpected => "EligibilityReasonUnexpected"
  | .eligibilityReasonDuplicate => "EligibilityReasonDuplicate"
  | .eligibilityReasonLimitExceeded => "EligibilityReasonLimitExceeded"
  | .eligibilityPrimaryReasonMismatch => "EligibilityPrimaryReasonMismatch"
  | .premiseGateInvalid => "PremiseGateInvalid"
  | .contentDigestMismatch => "ContentDigestMismatch"
  | .headManifestClosureMismatch => "HeadManifestClosureMismatch"
  | .lineageDuplicateRevision => "LineageDuplicateRevision"
  | .lineageCycle => "LineageCycle"
  | .lineageGap => "LineageGap"
  | .lineageScopeMismatch => "LineageScopeMismatch"
  | .lineagePrivacyMismatch => "LineagePrivacyMismatch"
  | .lineageDepthExceeded => "LineageDepthExceeded"
  | .lineageFailureMismatch => "LineageFailureMismatch"

/-- All failures in the order they are sorted in. -/
def ordered : List GovernedContractFailure :=
  [GovernedContractFailure.ownerRevisionRefInvalid, .validityIntervalInvalid,
    .validitySelfLoop, .validityTerminationMismatch, .validitySuccessorMismatch,
    .eligibilityReasonMissing, .eligibilityReasonUnexpected, .eligibilityReasonDuplicate,
    .eligibilityReasonLimitExceeded, .eligibilityPrimaryReasonMismatch, .premiseGateInvalid,
    .contentDigestMismatch, .headManifestClosureMismatch, .lineageDuplicateRevision,
    .lineageCycle, .lineageGap, .lineageScopeMismatch, .lineagePrivacyMismatch,
    .lineageDepthExceeded, .lineageFailureMismatch]

theorem mem_ordered (failure : GovernedContractFailure) : failure ∈ ordered := by
  cases failure <;> simp [ordered]

end GovernedContractFailure

/-- The failure when the condition holds. -/
def failIf (condition : Bool) (failure : GovernedContractFailure)
    : List GovernedContractFailure :=
  if condition then [failure] else []

@[simp]
theorem failIf_eq_nil {condition : Bool} {failure : GovernedContractFailure}
    : failIf condition failure = [] ↔ condition = false := by
  cases condition <;> simp [failIf]

structure GovernedContractValidation where
  accepted : Bool
  failures : List GovernedContractFailure
deriving DecidableEq, Repr

/-- The failures sorted and without repetitions; a validation accepts when there are none. -/
def contractValidation (failures : List GovernedContractFailure)
    : GovernedContractValidation where
  accepted := failures.isEmpty
  failures := GovernedContractFailure.ordered.filter (failures.contains ·)

/-- A list of failures as it appears in an error text. -/
def showFailures (failures : List GovernedContractFailure) : String :=
  "[" ++ ", ".intercalate (failures.map (·.name)) ++ "]"

@[simp]
theorem contractValidation_accepted {failures : List GovernedContractFailure}
    : (contractValidation failures).accepted = true ↔ failures = [] := by
  simp [contractValidation]

@[simp]
theorem contractValidation_failures {failures : List GovernedContractFailure}
    : (contractValidation failures).failures = [] ↔ failures = [] := by
  simp only [contractValidation, List.filter_eq_nil_iff, List.contains_iff_mem]
  refine ⟨fun none => ?_, fun empty failure _ => by simp [empty]⟩
  apply List.eq_nil_iff_forall_not_mem.mpr
  intro failure found
  exact none failure failure.mem_ordered found

/-! ## Owners and their revisions -/

inductive GovernedMemoryOwnerPlane where
  | longTerm
  | evidenceDocument
  | conversationTranscript
  | memoryGraph
  | runtimeSkill
  | agentToolExperience
deriving DecidableEq, Repr

def GovernedMemoryOwnerPlane.asStr : GovernedMemoryOwnerPlane → String
  | .longTerm => "long_term"
  | .evidenceDocument => "evidence_document"
  | .conversationTranscript => "conversation_transcript"
  | .memoryGraph => "memory_graph"
  | .runtimeSkill => "runtime_skill"
  | .agentToolExperience => "agent_tool_experience"

/-- The place of a plane in the order of the planes. -/
def GovernedMemoryOwnerPlane.rank : GovernedMemoryOwnerPlane → Nat
  | .longTerm => 0
  | .evidenceDocument => 1
  | .conversationTranscript => 2
  | .memoryGraph => 3
  | .runtimeSkill => 4
  | .agentToolExperience => 5

structure GovernedMemoryOwnerRef where
  ownerPlane : GovernedMemoryOwnerPlane
  ownerId : String
deriving DecidableEq, Repr

namespace GovernedMemoryOwnerRef

def isValid (self : GovernedMemoryOwnerRef) : Bool :=
  !self.ownerId.isEmpty && self.ownerId == trim self.ownerId

/-- Owners are ordered by plane and name. -/
def place (self : GovernedMemoryOwnerRef) : Lex (Nat × String) :=
  toLex (self.ownerPlane.rank, self.ownerId)

theorem place_injective : Function.Injective place := by
  rintro ⟨plane, id⟩ ⟨plane', id'⟩ same
  have planes : plane.rank = plane'.rank ∧ id = id' := by simpa [place] using same
  obtain ⟨ranks, rfl⟩ := planes
  cases plane <;> cases plane' <;> first | rfl | exact absurd ranks (by decide)

instance : LinearOrder GovernedMemoryOwnerRef :=
  LinearOrder.lift' place place_injective

end GovernedMemoryOwnerRef

structure GovernedOwnerRevisionRef where
  ownerRef : GovernedMemoryOwnerRef
  ownerRevision : Nat
deriving DecidableEq, Repr

namespace GovernedOwnerRevisionRef

def isValid (self : GovernedOwnerRevisionRef) : Bool :=
  self.ownerRef.isValid && decide (0 < self.ownerRevision)

/-- References are ordered by owner and revision. -/
def place (self : GovernedOwnerRevisionRef) : Lex (GovernedMemoryOwnerRef × Nat) :=
  toLex (self.ownerRef, self.ownerRevision)

theorem place_injective : Function.Injective place := by
  rintro ⟨owner, revision⟩ ⟨owner', revision'⟩ same
  obtain ⟨rfl, rfl⟩ : owner = owner' ∧ revision = revision' := by simpa [place] using same
  rfl

instance : LinearOrder GovernedOwnerRevisionRef :=
  LinearOrder.lift' place place_injective

end GovernedOwnerRevisionRef

/-! ## Sources and evidence -/

inductive MemorySubjectVisibilityPolicy where
  | allSubjects
  | onlySubjects (subjectIds : List String)
  | hiddenFromSubjects (subjectIds : List String)
deriving DecidableEq, Repr

/-- A set of subjects is written without repetitions in increasing order, and not empty. -/
def canonicalSubjects (subjectIds : List String) : Bool :=
  !subjectIds.isEmpty && subjectIds.all (fun id => !notCanonical id)
    && (pairs subjectIds).all fun pair => decide (pair.1 < pair.2)

def MemorySubjectVisibilityPolicy.validateCanonical
    : MemorySubjectVisibilityPolicy → Except Error Unit
  | .allSubjects => .ok ()
  | .onlySubjects subjectIds | .hiddenFromSubjects subjectIds =>
      if canonicalSubjects subjectIds then .ok ()
      else .error (.config "long_term_subject_visibility"
        "subject visibility sets must be non-empty, trimmed, unique, and strictly sorted")

structure TranscriptEvidenceRef where
  memorySpaceId : String
  channelId : String
  conversationId : String
  turnId : String
  messageId : Option String
  subjectId : Option String
deriving DecidableEq, Repr

namespace TranscriptEvidenceRef

def displayCitation (self : TranscriptEvidenceRef) : String :=
  let turn := "transcript:" ++ self.memorySpaceId ++ "/" ++ self.channelId ++ "/"
    ++ self.conversationId ++ "#turn=" ++ self.turnId
  match self.messageId with
  | some messageId => turn ++ "#message=" ++ messageId
  | none => turn

/-- The reference written in a citation; a citation does not name the subject. -/
def parseDisplayCitation (value : String) : Option TranscriptEvidenceRef := do
  let rest ← dropStart (trim value) "transcript:"
  let (path, turnPart) ← splitOnce "#turn=".toList rest.toList
  let (space, path) ← splitOnce ['/'] path
  let (channel, conversation) ← splitOnce ['/'] path
  let (turn, message) :=
    match splitOnce "#message=".toList turnPart with
    | some (turn, message) => (turn, some (trim (String.ofList message)))
    | none => (turnPart, none)
  let memorySpaceId := trim (String.ofList space)
  let channelId := trim (String.ofList channel)
  let conversationId := trim (String.ofList conversation)
  let turnId := trim (String.ofList turn)
  if memorySpaceId.isEmpty || channelId.isEmpty || conversationId.isEmpty || turnId.isEmpty then
    none
  else
    some
      { memorySpaceId, channelId, conversationId, turnId
        messageId := message.filter (!·.isEmpty)
        subjectId := none }

end TranscriptEvidenceRef

structure LongTermMemoryCorrectionEvidence where
  memorySpaceId : String
  actorSubjectId : String
  predecessor : GovernedOwnerRevisionRef
  successor : GovernedOwnerRevisionRef
  correctedAt : Nat
  controlRevisionId : String
deriving DecidableEq, Repr

namespace LongTermMemoryCorrectionEvidence

def validateContract (self : LongTermMemoryCorrectionEvidence) : Except Error Unit :=
  if notCanonical self.memorySpaceId || notCanonical self.actorSubjectId
      || self.correctedAt == 0 || notCanonical self.controlRevisionId
      || !self.predecessor.isValid || !self.successor.isValid
      || self.predecessor.ownerRef.ownerPlane != .longTerm
      || self.successor.ownerRef.ownerPlane != .longTerm
      || self.predecessor.ownerRef != self.successor.ownerRef
      || checkedNext self.predecessor.ownerRevision != some self.successor.ownerRevision then
    .error (.config "long_term_correction_evidence"
      "correction evidence scope, actor, lifecycle, revision, time, or control identity is invalid")
  else .ok ()

end LongTermMemoryCorrectionEvidence

structure LongTermMemoryHumanConfirmationEvidence where
  correction : LongTermMemoryCorrectionEvidence
  confirmedAt : Nat
deriving DecidableEq, Repr

namespace LongTermMemoryHumanConfirmationEvidence

def validateContract (self : LongTermMemoryHumanConfirmationEvidence) : Except Error Unit := do
  self.correction.validateContract
  if self.confirmedAt == 0 || self.confirmedAt != self.correction.correctedAt then
    .error (.config "long_term_human_confirmation_evidence"
      "human confirmation time must equal its exact correction transition time")
  else .ok ()

end LongTermMemoryHumanConfirmationEvidence

/-! ## Entries and materials -/

/-- What a memory says about one entity: the texts of the evidence it cites for it. -/
structure CanonicalEntityRef where
  evidenceRefs : List String
deriving DecidableEq, Repr

structure LongTermMemoryGovernedContent (D : Type) where
  transcriptSources : List TranscriptEvidenceRef
  controlBarrierScopeRevision : Option Nat
  content : String
  supportingCitations : List String
  canonicalEntities : List CanonicalEntityRef
  updatedAt : Nat
  observedAt : Nat
  correctionEvidence : Option LongTermMemoryCorrectionEvidence
  confirmationEvidence : Option LongTermMemoryHumanConfirmationEvidence
  sourceRevision : Option Nat
  details : D
deriving DecidableEq, Repr

structure LongTermMemoryVersionOrigin where
  validFrom : Nat
  observedAt : Nat
  predecessor : Option GovernedOwnerRevisionRef
deriving DecidableEq, Repr

/-- How a revision may follow its predecessor: a first revision follows nothing or a revision of
another owner, a later one the revision before it.
-/
def LongTermMemoryVersionOrigin.lineageFailures (current : GovernedOwnerRevisionRef)
    : Option GovernedOwnerRevisionRef → List GovernedContractFailure
  | none => failIf (current.ownerRevision != 1) .lineageGap
  | some predecessor =>
      if current.ownerRevision = 1 then
        failIf (predecessor.ownerRef.ownerPlane != current.ownerRef.ownerPlane)
            .lineageScopeMismatch
          ++ failIf (predecessor.ownerRef == current.ownerRef) .lineageGap
      else
        failIf (predecessor.ownerRef != current.ownerRef
            || checkedNext predecessor.ownerRevision != some current.ownerRevision)
          .lineageGap

def LongTermMemoryVersionOrigin.validateFor (self : LongTermMemoryVersionOrigin)
    (current : GovernedOwnerRevisionRef)
    : GovernedContractValidation :=
  contractValidation
    (failIf (!current.isValid || self.predecessor.any (!·.isValid)) .ownerRevisionRefInvalid
      ++ failIf (self.predecessor == some current) .validitySelfLoop
      ++ lineageFailures current self.predecessor)

def longTermMemoryVersionSchemaVersion : Nat := 6

/-- Everything a material's digest covers. -/
structure LongTermMemoryVersionDigestInput (D : Type) where
  schemaVersion : Nat
  memorySpaceId : String
  factualOwnerId : String
  ownerRef : GovernedMemoryOwnerRef
  ownerRevision : Nat
  governedContent : LongTermMemoryGovernedContent D
  governedEvidenceRefs : List GovernedOwnerRevisionRef
  origin : LongTermMemoryVersionOrigin
  subjectVisibility : MemorySubjectVisibilityPolicy
deriving DecidableEq, Repr

structure LongTermMemoryVersionMaterial (D : Type)
    extends LongTermMemoryVersionDigestInput D where
  contentDigest : String
deriving DecidableEq, Repr

namespace LongTermMemoryVersionMaterial

variable {D : Type}

def ownerRevisionRef (self : LongTermMemoryVersionMaterial D) : GovernedOwnerRevisionRef :=
  ⟨self.ownerRef, self.ownerRevision⟩

/-- The texts of all evidence the material cites, and of these the transcript citations. -/
def citations (self : LongTermMemoryVersionMaterial D) : List String :=
  (self.governedContent.supportingCitations
      ++ self.governedContent.canonicalEntities.flatMap (·.evidenceRefs)).filter
    (startsWith · "transcript:")

/-- The transcript sources are not exactly the cited turns, or one of them is malformed. -/
def sourcesMismatch (self : LongTermMemoryVersionMaterial D) : Bool :=
  let sources := self.governedContent.transcriptSources
  self.governedContent.controlBarrierScopeRevision == some 0
    || sources.any (fun source =>
      source.memorySpaceId != self.memorySpaceId
        || source.subjectId.all (fun id => id.isEmpty || trim id != id)
        || !self.citations.contains source.displayCitation
        || (TranscriptEvidenceRef.parseDisplayCitation source.displayCitation).isNone)
    || self.citations.any (fun citation =>
      !sources.any (fun source => source.displayCitation == citation))
    || (pairs sources).any fun pair =>
      decide (pair.2.displayCitation ≤ pair.1.displayCitation)

/-- The correction and confirmation evidence does not belong to this owner or revision. -/
def evidenceMismatch (self : LongTermMemoryVersionMaterial D) : Bool :=
  self.governedContent.correctionEvidence.any (fun evidence =>
      !evidence.validateContract.isOk
        || evidence.memorySpaceId != self.memorySpaceId
        || evidence.successor.ownerRef != self.ownerRef
        || decide (self.ownerRevision < evidence.successor.ownerRevision))
    || self.governedContent.confirmationEvidence.any fun evidence =>
      !evidence.validateContract.isOk
        || some evidence.correction != self.governedContent.correctionEvidence

variable (digest : LongTermMemoryVersionDigestInput D → String)

def validateContract (self : LongTermMemoryVersionMaterial D) : GovernedContractValidation :=
  contractValidation
    (failIf (self.schemaVersion != longTermMemoryVersionSchemaVersion
          || notCanonical self.memorySpaceId || notCanonical self.factualOwnerId
          || self.factualOwnerId != self.memorySpaceId
          || self.ownerRef.ownerPlane != .longTerm || !self.ownerRevisionRef.isValid)
        .ownerRevisionRefInvalid
      ++ (self.origin.validateFor self.ownerRevisionRef).failures
      ++ failIf (!self.subjectVisibility.validateCanonical.isOk) .contentDigestMismatch
      ++ failIf self.sourcesMismatch .contentDigestMismatch
      ++ failIf (self.governedEvidenceRefs.any (fun evidence =>
            !evidence.isValid || evidence.ownerRef.ownerPlane != .evidenceDocument)
          || (pairs self.governedEvidenceRefs).any fun pair => decide (pair.2 ≤ pair.1))
        .ownerRevisionRefInvalid
      ++ failIf (self.governedEvidenceRefs.dedup.length != self.governedEvidenceRefs.length)
        .lineageDuplicateRevision
      ++ failIf (trimIsEmpty self.governedContent.content
          || self.governedContent.observedAt != self.origin.observedAt
          || self.evidenceMismatch
          || digest self.toLongTermMemoryVersionDigestInput != self.contentDigest)
        .contentDigestMismatch)

end LongTermMemoryVersionMaterial

end BeetleMemory.LongTerm
