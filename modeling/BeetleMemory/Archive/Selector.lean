import BeetleMemory.Graph.Text
import BeetleMemory.Lib.Keyed
import BeetleMemory.Lib.Runs

/-! Which archive hits go into a prompt. A first pass takes hits up to a quota for each source and
defers the rest; a second pass fills the free places with deferred hits. Lengths are far below the
bounds of the machine, so sums of them are plain.
-/

namespace BeetleMemory.Archive

open BeetleMemory.Graph (TextTables hasPart splitWhitespace normalizeRetrievalText)

/-! ## Hits and policies -/

inductive ArchiveRecordSource where
  | transcript
  | dailyNote
  | turnLog
deriving DecidableEq, Repr

def ArchiveRecordSource.label : ArchiveRecordSource → String
  | .transcript => "transcript"
  | .dailyNote => "daily_note"
  | .turnLog => "turn_log"

structure ArchiveRetrievalTrace where
  selectorReason : Option String := none
deriving DecidableEq, Repr

structure ArchiveSearchHit where
  citation : String
  source : ArchiveRecordSource
  title : String
  excerpt : String
  score : Nat
  cues : List String
  observedAt : Option Nat
  retrievalTrace : Option ArchiveRetrievalTrace
deriving DecidableEq, Repr

inductive MemoryProfile where
  | embedded
  | standard
deriving DecidableEq, Repr

structure MemoryCapabilityProfile where
  archivePromptMaxItems : Nat
  archivePromptMaxChars : Nat
deriving DecidableEq, Repr

def memoryCapabilityProfile : MemoryProfile → MemoryCapabilityProfile
  | .embedded => { archivePromptMaxItems := 3, archivePromptMaxChars := 512 }
  | .standard => { archivePromptMaxItems := 4, archivePromptMaxChars := 768 }

structure ArchiveSelectorPolicy where
  maxItems : Nat
  maxChars : Nat
  transcriptQuota : Nat
  dailyNoteQuota : Nat
  turnLogQuota : Nat
deriving DecidableEq, Repr

def selectorPolicy (profile : MemoryProfile) (maxChars : Nat) : ArchiveSelectorPolicy :=
  let capability := memoryCapabilityProfile profile
  match profile with
  | .standard =>
      { maxItems := min capability.archivePromptMaxItems 4
        maxChars := min maxChars capability.archivePromptMaxChars
        transcriptQuota := 2
        dailyNoteQuota := 1
        turnLogQuota := 1 }
  | .embedded =>
      { maxItems := min capability.archivePromptMaxItems 3
        maxChars := min maxChars capability.archivePromptMaxChars
        transcriptQuota := 1
        dailyNoteQuota := 1
        turnLogQuota := 1 }

def sourceQuota (policy : ArchiveSelectorPolicy) : ArchiveRecordSource → Nat
  | .transcript => policy.transcriptQuota
  | .dailyNote => policy.dailyNoteQuota
  | .turnLog => policy.turnLogQuota

/-! ## Similarity and length -/

def normalizedSimilarityKey (tables : TextTables) (hit : ArchiveSearchHit) : String :=
  normalizeRetrievalText tables (hit.title ++ " " ++ hit.excerpt)

def sharedArchiveTerms (a b : String) : Nat :=
  (splitWhitespace a.toList).countP fun term =>
    !decide ((String.ofList term).utf8ByteSize < 3) && (splitWhitespace b.toList).contains term

def isTooSimilar (existingKeys : List String) (candidateKey : String) : Bool :=
  if candidateKey.isEmpty then false
  else existingKeys.any fun existing =>
    existing == candidateKey || hasPart existing candidateKey || hasPart candidateKey existing
      || decide (5 ≤ sharedArchiveTerms existing candidateKey)

def archivePromptLineLen (hit : ArchiveSearchHit) : Nat :=
  16 + hit.title.utf8ByteSize + hit.excerpt.utf8ByteSize + hit.citation.utf8ByteSize
    + (hit.cues.map String.utf8ByteSize).sum

/-- A hit with what is computed from it before the passes. -/
structure PreparedArchivePromptHit (tables : TextTables) where
  hit : ArchiveSearchHit
  similarityKey : String
  promptLineLen : Nat
  key_eq : similarityKey = normalizedSimilarityKey tables hit
  len_eq : promptLineLen = archivePromptLineLen hit

variable (tables : TextTables)

/-- By falling score, then the latest first, then by citation; an unknown time is the earliest. -/
def archiveHitPlace (hit : ArchiveSearchHit) : ℕᵒᵈ ×ₗ (WithBot ℕ)ᵒᵈ ×ₗ String :=
  let observedAt : WithBot ℕ := hit.observedAt
  toLex (OrderDual.toDual hit.score, toLex (OrderDual.toDual observedAt, hit.citation))

def prepareArchivePromptHits (hits : List ArchiveSearchHit)
    : List (PreparedArchivePromptHit tables) :=
  (Keyed.sortBy archiveHitPlace hits).map fun hit =>
    ⟨hit, normalizedSimilarityKey tables hit, archivePromptLineLen hit, rfl, rfl⟩

/-! ## The two passes -/

def annotateSelectorReason (hit : ArchiveSearchHit) (reason : String) : ArchiveSearchHit :=
  { hit with retrievalTrace := hit.retrievalTrace.map fun trace =>
      { trace with selectorReason := some reason } }

def primarySelectorReason (hit : ArchiveSearchHit) (used quota : Nat) : String :=
  "selected in primary quota pass as top " ++ hit.source.label ++ " evidence ("
    ++ toString (used + 1) ++ "/" ++ toString quota ++ ")"

def relaxedSelectorReason (hit : ArchiveSearchHit) : String :=
  "selected in quota-relax pass to fill remaining archive budget with " ++ hit.source.label
    ++ " evidence"

/-- What the passes carry. -/
structure SelectorState where
  selected : List ArchiveSearchHit := []
  deferred : List (PreparedArchivePromptHit tables) := []
  usedChars : Nat := 0
  skippedByChars : Nat := 0
  skippedBySimilarity : Nat := 0
  deferredByQuota : Nat := 0
  relaxedQuotaSelected : Nat := 0
  perSource : ArchiveRecordSource → Nat := fun _ => 0
  similarityKeys : List String := []

variable {tables}

/-- What happens to a hit in a pass; a pass ends when all places are taken. -/
inductive Outcome where
  | full
  | tooLong
  | overQuota
  | similar
  | taken
deriving DecidableEq, Repr

def primaryOutcome (policy : ArchiveSelectorPolicy) (state : SelectorState tables)
    (prepared : PreparedArchivePromptHit tables)
    : Outcome :=
  if policy.maxItems ≤ state.selected.length then .full
  else if policy.maxChars < state.usedChars + prepared.promptLineLen then .tooLong
  else if sourceQuota policy prepared.hit.source ≤ state.perSource prepared.hit.source then
    .overQuota
  else if isTooSimilar state.similarityKeys prepared.similarityKey then .similar
  else .taken

def primaryStep (policy : ArchiveSelectorPolicy) (state : SelectorState tables)
    (prepared : PreparedArchivePromptHit tables)
    : SelectorState tables :=
  match primaryOutcome policy state prepared with
  | .full => state
  | .tooLong => { state with skippedByChars := state.skippedByChars + 1 }
  | .overQuota =>
      { state with
        deferredByQuota := state.deferredByQuota + 1
        deferred := state.deferred ++ [prepared] }
  | .similar => { state with skippedBySimilarity := state.skippedBySimilarity + 1 }
  | .taken =>
      let source := prepared.hit.source
      let used := state.perSource source
      { state with
        usedChars := state.usedChars + prepared.promptLineLen
        perSource := Function.update state.perSource source (used + 1)
        similarityKeys := state.similarityKeys ++ [prepared.similarityKey]
        selected := state.selected ++ [annotateSelectorReason prepared.hit
          (primarySelectorReason prepared.hit used (sourceQuota policy source))] }

def relaxedOutcome (policy : ArchiveSelectorPolicy) (state : SelectorState tables)
    (prepared : PreparedArchivePromptHit tables)
    : Outcome :=
  if policy.maxItems ≤ state.selected.length then .full
  else if policy.maxChars < state.usedChars + prepared.promptLineLen then .tooLong
  else if isTooSimilar state.similarityKeys prepared.similarityKey then .similar
  else .taken

def relaxedStep (policy : ArchiveSelectorPolicy) (state : SelectorState tables)
    (prepared : PreparedArchivePromptHit tables)
    : SelectorState tables :=
  match relaxedOutcome policy state prepared with
  | .full => state
  | .tooLong => { state with skippedByChars := state.skippedByChars + 1 }
  | .overQuota => state
  | .similar => { state with skippedBySimilarity := state.skippedBySimilarity + 1 }
  | .taken =>
      { state with
        usedChars := state.usedChars + prepared.promptLineLen
        similarityKeys := state.similarityKeys ++ [prepared.similarityKey]
        relaxedQuotaSelected := state.relaxedQuotaSelected + 1
        selected := state.selected ++ [annotateSelectorReason prepared.hit
          (relaxedSelectorReason prepared.hit)] }

def primaryPass (policy : ArchiveSelectorPolicy)
    (preparedHits : List (PreparedArchivePromptHit tables))
    : SelectorState tables :=
  preparedHits.foldl (primaryStep policy) {}

def relaxedPass (policy : ArchiveSelectorPolicy) (state : SelectorState tables)
    : SelectorState tables :=
  if state.selected.length < policy.maxItems then
    state.deferred.foldl (relaxedStep policy) state
  else state

/-! ## The report -/

structure ArchivePromptSelectionSourceStats where
  source : ArchiveRecordSource
  selectedCount : Nat
deriving DecidableEq, Repr

structure ArchivePromptSelectionReport where
  inputHits : Nat := 0
  selectedHits : Nat := 0
  maxItems : Nat := 0
  maxChars : Nat := 0
  skippedByChars : Nat := 0
  skippedBySimilarity : Nat := 0
  deferredByQuota : Nat := 0
  relaxedQuotaSelected : Nat := 0
  sourceStats : List ArchivePromptSelectionSourceStats := []
  selectionNote : Option String := none
deriving DecidableEq, Repr

structure ArchivePromptSelectionResult where
  hits : List ArchiveSearchHit
  report : ArchivePromptSelectionReport
deriving DecidableEq, Repr

/-- The sources that were counted, by label. -/
def sourceStats (perSource : ArchiveRecordSource → Nat)
    : List ArchivePromptSelectionSourceStats :=
  (([.dailyNote, .transcript, .turnLog] : List ArchiveRecordSource).filter (perSource · ≠ 0)).map
    fun source => ⟨source, perSource source⟩

variable (tables)

def selectArchiveHitsForPromptWithReport (hits : List ArchiveSearchHit) (profile : MemoryProfile)
    (maxChars : Nat)
    : ArchivePromptSelectionResult :=
  let policy := selectorPolicy profile maxChars
  if hits.isEmpty || policy.maxItems == 0 || policy.maxChars == 0 then
    { hits := []
      report :=
        { inputHits := hits.length
          selectedHits := 0
          maxItems := policy.maxItems
          maxChars := policy.maxChars
          selectionNote := some (if hits.isEmpty then "no_archive_hits_available"
            else "archive_prompt_budget_zero") } }
  else
    let preparedHits := prepareArchivePromptHits tables hits
    let state := relaxedPass policy (primaryPass policy preparedHits)
    { hits := state.selected
      report :=
        { inputHits := preparedHits.length
          selectedHits := state.selected.length
          maxItems := policy.maxItems
          maxChars := policy.maxChars
          skippedByChars := state.skippedByChars
          skippedBySimilarity := state.skippedBySimilarity
          deferredByQuota := state.deferredByQuota
          relaxedQuotaSelected := state.relaxedQuotaSelected
          sourceStats := sourceStats state.perSource
          selectionNote :=
            if state.selected.isEmpty then some "selector_kept_no_archive_hits"
            else if 0 < state.relaxedQuotaSelected then some "selector_used_quota_relax_pass"
            else none } }

end BeetleMemory.Archive
